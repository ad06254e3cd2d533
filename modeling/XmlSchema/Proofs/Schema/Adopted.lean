import XmlSchema.Proofs.Schema.Inclusion
import XmlSchema.Proofs.Schema.Order
import XmlSchema.Proofs.Text.Ascii

namespace XmlSchema.Schema

open Component
open Xml (Element)
open Files (Path)

variable {lib : Library} {known known' : String → Bool} {unit unit' loaded : List LoadedSource}
  {source : LoadedSource} {text other : UnitText} {root : Element}

theorem Refers.mono (fewer : ∀ ns, known ns = false → known' ns = false)
    (refers : Refers lib known text other) : Refers lib known' text other := by
  obtain ⟨root, read, child, member, ⟨location, content, same, kind⟩⟩ := refers
  refine ⟨root, read, child, member, location, content, same, kind.imp_right ?_⟩
  exact fun ⟨isImport, noIncluder, unknown, notSource⟩ =>
    ⟨isImport, noIncluder, fewer _ unknown, notSource⟩

theorem Joins.mono (within : unit ⊆ unit') (fewer : ∀ ns, known ns = false → known' ns = false)
    (joins : Joins lib known unit text) : Joins lib known' unit' text := by
  induction joins with
  | source member => exact .source (within member)
  | refer _ refers ih => exact .refer ih (refers.mono fewer)

/-- A source includes a document, directly or through others. No import is followed where all
namespaces are known. -/
def Includes (lib : Library) (source : LoadedSource) (text : UnitText) : Prop :=
  Joins lib (fun _ => true) [source] text

/-- What may have to be compiled together with some sources, whatever has been compiled before. -/
def MayJoin (lib : Library) (unit : List LoadedSource) (text : UnitText) : Prop :=
  Joins lib (fun _ => false) unit text

theorem Supplies.of_includes {pool : Pool} (supplies : Supplies lib known unit pool)
    (member : source ∈ unit) (includes : Includes lib source text) :
    ∃ root, text.HasRoot root ∧
      ((∀ other, MayJoin lib unit other → other.place = text.place →
          targetOf root other.includer = targetOf root text.includer) →
        ∀ e ∈ schemaChildren root, ∀ kind name, Declares e kind name →
          (pool.find? kind ⟨targetOf root text.includer, name⟩).isSome) := by
  have joins : Joins lib known unit text := includes.mono (by simpa using member) (by simp)
  obtain ⟨root, read, twin, joinsTwin, same, holds⟩ := supplies text joins
  refine ⟨root, read, fun agree e among kind name declares => ?_⟩
  rw [← agree twin (joinsTwin.mono (List.Subset.refl _) (by simp)) same]
  exact holds e among kind name declares

theorem exists_source_of_loadAll {files : Files.Tree} {sources : List Source}
    (loads : loadAll files sources = .ok loaded) (member : source ∈ loaded) :
    ∃ given ∈ sources, given.systemId = source.1 := by
  induction sources generalizing loaded with
  | nil =>
    cases loads
    cases member
  | cons first rest ih =>
    obtain ⟨text, more, _, loadsMore, rfl⟩ := loadAll_cons_eq_ok.1 loads
    rcases List.mem_cons.1 member with rfl | among
    · exact ⟨first, List.mem_cons_self, rfl⟩
    · obtain ⟨given, later, same⟩ := ih loadsMore among
      exact ⟨given, List.mem_cons_of_mem _ later, same⟩

/-- In a compiled schema set, what a document defines is under the namespace that a source includes it
under, if no document that may be compiled together with the source includes it under another one. A
source is compiled alone if it is not put off to the end. -/
theorem declared_of_includes {files : Files.Tree} {discover : Bool} {identity : String}
    {sources : List Source} {bundle : Bundle}
    (distinct : (sources.map fun source => normalizeLocation source.systemId).Nodup)
    (named : ∀ source ∈ sources, (Path.ofText source.systemId).EndsWithName)
    (compiled : compile files discover identity sources = .ok bundle) :
    ∃ loaded p deferred, loadAll files sources = .ok loaded ∧
      Progress.passes (libraryOf files discover loaded) loaded.length {} loaded = .ok (p, deferred) ∧
      ∀ source ∈ loaded, ∀ text, Includes (libraryOf files discover loaded) source text →
        ∃ root, text.HasRoot root ∧
          ((∀ other, MayJoin (libraryOf files discover loaded)
                (if source ∈ deferred then deferred else [source]) other →
              other.place = text.place →
              targetOf root other.includer = targetOf root text.includer) →
            ∀ e ∈ schemaChildren root, ∀ kind name, Declares e kind name →
              (bundle.pool.find? kind ⟨targetOf root text.includer, name⟩).isSome) := by
  obtain ⟨_, loaded, p, deferred, q, loads, passed, finishes, rfl⟩ := compile_eq_ok_iff.1 compiled
  refine ⟨loaded, p, deferred, loads, passed, fun source member text includes => ?_⟩
  have ids := systemIds_loadAll loads
  have placed : ∀ source ∈ loaded, Placed (libraryOf files discover loaded) (textOf source) := by
    intro source member
    obtain ⟨given, among, same⟩ := exists_source_of_loadAll loads member
    exact placed_textOf (ids ▸ distinct) (same ▸ named given among) member
  have rounds := Progress.rounds_of_passes passed
  have within := (rounds.advances (List.Subset.refl _)).1
  have supplies := rounds.supplies placed
  split
  · next isDeferred =>
    cases finishes with
    | done => cases isDeferred
    | together _ last =>
      have together := supplies_of_compileUnit (fun other among => placed other (within among)) last
      exact together.of_includes isDeferred includes
  · next notDeferred =>
    obtain ⟨known, alone⟩ := (supplies source member).resolve_left notDeferred
    have supplied : Supplies (libraryOf files discover loaded) known [source] q.pool := by
      cases finishes with
      | done => exact alone
      | together _ last =>
        exact Progress.register_of_kept (supplies_keptByUnits.bySources _ loaded) within alone last
    exact supplied.of_includes List.mem_cons_self includes

def gatherNext (lib : Library) (known : String → Bool) :
    Nat → List String → List UnitText → Except SchemaError (List UnitText)
  | 0, _, _ => .ok []
  | fuel + 1, seen, stack =>
    match stack.dropWhile fun text => seen.contains text.place with
    | [] => .ok []
    | text :: rest =>
      referencedDocuments lib known text >>= fun referenced =>
        gatherNext lib known fuel (text.place :: seen) (referenced.reverse ++ rest) >>= fun others =>
          .ok (text :: others)

theorem gather_eq_gatherNext : gather = gatherNext := by
  funext lib known fuel seen stack
  induction fuel, seen, stack using gather.induct with
  | case1 fuel seen =>
    rw [gather]
    cases fuel <;> rfl
  | case2 fuel seen text stack _ isSeen =>
    rename_i ih
    rw [gather_cons_of_seen (List.contains_iff_mem.1 isSeen), ih]
    cases fuel with
    | zero => rfl
    | succ fuel =>
      have skip : (text :: stack).dropWhile (fun text => seen.contains text.place) =
          stack.dropWhile fun text => seen.contains text.place := List.dropWhile_cons_of_pos isSeen
      rw [gatherNext, gatherNext, skip]
  | case3 seen text stack _ =>
    rename_i notSeen
    rw [gather, if_neg notSeen]
    rfl
  | case4 seen text stack _ notSeen fuel =>
    rename_i ih
    have stop : (text :: stack).dropWhile (fun text => seen.contains text.place) = text :: stack :=
      List.dropWhile_cons_of_neg notSeen
    rw [gather_cons_of_new fun member => notSeen (List.contains_iff_mem.2 member), gatherNext, stop]
    exact bind_congr fun referenced => congrArg (· >>= _) (ih referenced)

def codesText : String :=
  "<schema xmlns='http://www.w3.org/2001/XMLSchema'><complexType name='Code'/></schema>"

def partsText : String :=
  "<schema xmlns='http://www.w3.org/2001/XMLSchema'><include schemaLocation='codes.xsd'/></schema>"

def stockText : String :=
  "<schema xmlns='http://www.w3.org/2001/XMLSchema' targetNamespace='urn:s'>" ++
  "<include schemaLocation='parts.xsd'/></schema>"

def leftText : String :=
  "<schema xmlns='http://www.w3.org/2001/XMLSchema' targetNamespace='urn:l' xmlns:r='urn:r'>" ++
  "<include schemaLocation='codes.xsd'/><complexType name='L'/><element name='r' type='r:R'/></schema>"

def rightText : String :=
  "<schema xmlns='http://www.w3.org/2001/XMLSchema' targetNamespace='urn:r' xmlns:l='urn:l'>" ++
  "<include schemaLocation='codes.xsd'/><complexType name='R'/><element name='l' type='l:L'/></schema>"

def stockLoaded : List LoadedSource :=
  [("codes.xsd", codesText), ("parts.xsd", partsText), ("stock.xsd", stockText)]

def sidesLoaded : List LoadedSource :=
  [("codes.xsd", codesText), ("left.xsd", leftText), ("right.xsd", rightText)]

def sourceOf (source : LoadedSource) : Source :=
  { systemId := source.1, content := some source.2 }

abbrev stockLibrary : Library := libraryOf {} false stockLoaded

abbrev sidesLibrary : Library := libraryOf {} false sidesLoaded

def partsAdopted : UnitText := ⟨"parts.xsd", partsText, "stock.xsd", some "urn:s"⟩

def codesAdopted : UnitText := ⟨"codes.xsd", codesText, "stock.xsd", some "urn:s"⟩

def codesOfRight : UnitText := ⟨"codes.xsd", codesText, "right.xsd", some "urn:r"⟩

def stockTexts : List UnitText := [textOf ("stock.xsd", stockText), partsAdopted, codesAdopted]

deriving instance DecidableEq for UnitText

-- One evaluation for all, because reading the texts is what takes the time.
set_option maxRecDepth 100000 in
theorem codes_included :
    (∃ bundle ∈ (compile {} false "stock" (stockLoaded.map sourceOf)).toOption,
        (bundle.pool.find? .type ⟨"urn:s", "Code"⟩).isSome) ∧
      (∃ result ∈ (Progress.passes stockLibrary stockLoaded.length {} stockLoaded).toOption,
        result.2 = []) ∧
      (∀ text ∈ stockTexts,
        ∃ referenced ∈ (referencedDocuments stockLibrary (fun _ => false) text).toOption,
          ∀ other ∈ referenced, other ∈ stockTexts) ∧
      (∀ entry ∈ [(textOf ("stock.xsd", stockText), partsAdopted), (partsAdopted, codesAdopted)],
        ∃ referenced ∈ (referencedDocuments stockLibrary (fun _ => true) entry.1).toOption,
          entry.2 ∈ referenced) ∧
      (∃ bundle ∈ (compile {} false "sides" (sidesLoaded.map sourceOf)).toOption,
        bundle.pool.find? .type ⟨"urn:r", "Code"⟩ = none) ∧
      (∀ source ∈ [("right.xsd", rightText)],
        ∃ referenced ∈ (referencedDocuments sidesLibrary (fun _ => true) (textOf source)).toOption,
          codesOfRight ∈ referenced) ∧
      ∀ text ∈ [codesAdopted, codesOfRight], ∃ root ∈ (parse text.systemId text.content).toOption,
        root.attribute? "targetNamespace" = none ∧ ∃ e ∈ schemaChildren root,
          ComponentKind.ofElementName? e.name.localName = some .type ∧
            e.attribute? "name" = some "Code" := by
  delta compile Progress.passes Progress.passes._f Progress.pass Progress.pass._f
    Progress.compileUnit unitTexts
  rw [gather_eq_gatherNext]
  delta gatherNext gatherNext._f documents referencedDocuments parse Xml.parse? String.length
  rw [Text.toList_eq_letters]
  decide +kernel

theorem Joins.mem {texts : List UnitText} (start : ∀ source ∈ unit, textOf source ∈ texts)
    (closed : ∀ text ∈ texts, ∃ referenced ∈ (referencedDocuments lib known text).toOption,
      ∀ other ∈ referenced, other ∈ texts)
    (joins : Joins lib known unit text) : text ∈ texts := by
  induction joins with
  | source member => exact start _ member
  | refer _ refers ih =>
    obtain ⟨referenced, given, within⟩ := closed _ ih
    exact within _ ((mem_referencedDocuments_iff (eq_ok_of_mem_toOption given)).2 refers)

theorem places_of_codes :
    ((stockLoaded.map sourceOf).map fun source => normalizeLocation source.systemId).Nodup ∧
      (∀ source ∈ stockLoaded.map sourceOf, (Path.ofText source.systemId).EndsWithName) ∧
      (∀ other ∈ stockTexts, other.place = codesAdopted.place →
        other.includer = codesAdopted.includer) ∧
      (sidesLoaded.map fun source => normalizeLocation source.1).Nodup := by
  decide +kernel

theorem declared_of_includes_stock : ∃ bundle,
    compile {} false "stock" (stockLoaded.map sourceOf) = .ok bundle ∧
      (bundle.pool.find? .type ⟨"urn:s", "Code"⟩).isSome := by
  obtain ⟨⟨bundle, given, _⟩, ⟨⟨q, _⟩, passedTo, rfl⟩, closed, chain, _, _, codes⟩ := codes_included
  obtain ⟨⟨parts, givenParts, toParts⟩, ⟨others, givenOthers, toCodes⟩, _⟩ := by
    simpa only [List.forall_mem_cons] using chain
  obtain ⟨root, isRoot, noTarget, e, among, declares⟩ := codes codesAdopted List.mem_cons_self
  have compiled := eq_ok_of_mem_toOption given
  refine ⟨bundle, compiled, ?_⟩
  obtain ⟨distinct, named, sameIncluder, _⟩ := places_of_codes
  obtain ⟨loaded, p, deferred, loads, passed, declared⟩ :=
    declared_of_includes distinct named compiled
  obtain rfl : stockLoaded = loaded := Except.ok.inj loads
  cases passed.symm.trans (eq_ok_of_mem_toOption passedTo)
  have includes : Includes stockLibrary ("stock.xsd", stockText) codesAdopted :=
    .refer (.refer (.source List.mem_cons_self)
      ((mem_referencedDocuments_iff (eq_ok_of_mem_toOption givenParts)).1 toParts))
      ((mem_referencedDocuments_iff (eq_ok_of_mem_toOption givenOthers)).1 toCodes)
  obtain ⟨root', read, holds⟩ :=
    declared ("stock.xsd", stockText) (by simp [stockLoaded]) codesAdopted includes
  obtain rfl := read.unique (eq_ok_of_mem_toOption isRoot)
  have target : targetOf root' codesAdopted.includer = "urn:s" := by
    rw [targetOf, noTarget]
    rfl
  rw [← target]
  refine holds (fun other joins place => ?_) e among .type "Code" declares
  have member : other ∈ stockTexts := Joins.mem (by simp [stockTexts]) closed joins
  rw [sameIncluder other member place]

/-- Codes that two schemas include, which refer to each other, are under the namespace of one of them
only: the two are compiled together, and gather the codes once. -/
theorem not_declared_of_includes :
    ∃ bundle text root, compile {} false "sides" (sidesLoaded.map sourceOf) = .ok bundle ∧
      (sidesLoaded.map fun source => normalizeLocation source.1).Nodup ∧
      Includes sidesLibrary ("right.xsd", rightText) text ∧ text.includer = some "urn:r" ∧
      text.HasRoot root ∧ root.attribute? "targetNamespace" = none ∧
      (∃ e ∈ schemaChildren root, Declares e .type "Code") ∧
      bundle.pool.find? .type ⟨"urn:r", "Code"⟩ = none := by
  obtain ⟨_, _, _, _, ⟨bundle, given, absent⟩, included, codes⟩ := codes_included
  obtain ⟨referenced, givenCodes, toCodes⟩ := included _ List.mem_cons_self
  obtain ⟨root, isRoot, noTarget, declares⟩ := codes codesOfRight (by simp)
  obtain ⟨_, _, _, distinct⟩ := places_of_codes
  exact ⟨bundle, codesOfRight, root, eq_ok_of_mem_toOption given, distinct,
    .refer (.source List.mem_cons_self)
      ((mem_referencedDocuments_iff (eq_ok_of_mem_toOption givenCodes)).1 toCodes),
    rfl, eq_ok_of_mem_toOption isRoot, noTarget, declares, absent⟩

end XmlSchema.Schema
