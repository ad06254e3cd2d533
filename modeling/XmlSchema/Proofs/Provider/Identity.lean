import XmlSchema.Proofs.Validation.Caching
import XmlSchema.Validation.Validator

namespace XmlSchema

open Provider (Context byHints hintedSources identityOf sourceLabel)
open Schema (Source)
open Validation (Cache Options Validator)

structure Schema.Source.IsClear (source : Source) : Prop where
  ns : ∀ ns, source.ns = some ns → '=' ∉ ns.toList ∧ ';' ∉ ns.toList
  systemId : ';' ∉ source.systemId.toList
  unnamed : source.ns = none → '=' ∉ source.systemId.toList

namespace Provider

variable {source other : Source}

theorem toList_sourceLabel (source : Source) : (sourceLabel source).toList =
    match source.ns with
    | some ns => ns.toList ++ '=' :: source.systemId.toList
    | none => source.systemId.toList := by
  unfold sourceLabel
  cases source.ns with
  | none => rfl
  | some ns => simp

theorem takeWhile_separator {before after : List Char} {separator : Char}
    (absent : separator ∉ before) :
    (before ++ separator :: after).takeWhile (· != separator) = before := by
  rw [List.takeWhile_append_of_pos fun c member => by
    simpa using fun same : c = separator => absent (same ▸ member)]
  simp

theorem source_eq_of_sourceLabel_eq (clear : source.IsClear) (clear' : other.IsClear)
    (same : sourceLabel source = sourceLabel other) :
    source.ns = other.ns ∧ source.systemId = other.systemId := by
  have letters := congrArg String.toList same
  rw [toList_sourceLabel, toList_sourceLabel] at letters
  cases ns : source.ns with
  | none =>
    cases ns' : other.ns with
    | none => exact ⟨rfl, String.toList_inj.1 (by simpa [ns, ns'] using letters)⟩
    | some name =>
      simp only [ns, ns'] at letters
      exact absurd (by simp [letters]) (clear.unnamed ns)
  | some name =>
    cases ns' : other.ns with
    | none =>
      simp only [ns, ns'] at letters
      exact absurd (by simp [← letters]) (clear'.unnamed ns')
    | some name' =>
      simp only [ns, ns'] at letters
      have names : name.toList = name'.toList := by
        rw [← takeWhile_separator (clear.ns name ns).1, letters,
          takeWhile_separator (clear'.ns name' ns').1]
      rw [names, List.append_cancel_left_eq, List.cons.injEq] at letters
      exact ⟨congrArg some (String.toList_inj.1 names), String.toList_inj.1 letters.2⟩

theorem separator_not_mem (clear : source.IsClear) : ';' ∉ (sourceLabel source).toList := by
  rw [toList_sourceLabel]
  cases ns : source.ns with
  | none => exact clear.systemId
  | some name => simp [(clear.ns name ns).2, clear.systemId]

theorem splitOn_identityOf {sources : List Source} (nonempty : sources ≠ [])
    (clear : ∀ source ∈ sources, source.IsClear) :
    (identityOf sources).toList.splitOn ';' = sources.map fun source => (sourceLabel source).toList := by
  rw [identityOf, String.toList_intercalate, List.map_map]
  refine List.splitOn_intercalate ';' (fun label member => ?_) (by simpa using nonempty)
  obtain ⟨source, among, rfl⟩ := List.mem_map.1 member
  exact separator_not_mem (clear source among)

variable {base? : Option String} {document document' : Bytes} {context context' : Context}
  {sources sources' : List Source}

@[simp] theorem sourcesFor_byHints :
    (byHints base?).sourcesFor document context = hintedSources base? document context := by
  simp only [byHints]

@[simp] theorem identityFor_byHints : (byHints base?).identityFor document context =
    (hintedSources base? document context).map identityOf := by
  simp only [byHints]

def ClearHints (base? : Option String) (document : Bytes) (context : Context) : Prop :=
  ∀ sources, hintedSources base? document context = .ok sources →
    ∀ source ∈ sources, source.IsClear

theorem hintedSources_ne_nil (hinted : hintedSources base? document context = .ok sources) :
    sources ≠ [] := by
  unfold hintedSources at hinted
  split at hinted
  · cases hinted
  · next some =>
    obtain rfl := Except.ok.inj hinted
    exact some

theorem content_of_hintedSources (hinted : hintedSources base? document context = .ok sources) :
    ∀ source ∈ sources, source.content = none := by
  unfold hintedSources at hinted
  split at hinted
  · cases hinted
  · obtain rfl := Except.ok.inj hinted
    intro source member
    obtain ⟨hint, -, rfl⟩ := List.mem_map.1 member
    rfl

theorem sources_eq_of_labels_eq
    (clear : ∀ source ∈ sources, source.IsClear ∧ source.content = none)
    (clear' : ∀ source ∈ sources', source.IsClear ∧ source.content = none)
    (same : sources.map sourceLabel = sources'.map sourceLabel) : sources = sources' := by
  induction sources generalizing sources' with
  | nil => exact (List.map_eq_nil_iff.1 same.symm).symm
  | cons source sources ih =>
    rw [List.map_cons, eq_comm, List.map_eq_cons_iff] at same
    obtain ⟨other, others, rfl, sameLabel, sameRest⟩ := same
    rw [List.forall_mem_cons] at clear clear'
    obtain ⟨ns, systemId⟩ := source_eq_of_sourceLabel_eq clear.1.1 clear'.1.1 sameLabel.symm
    have first : source = other := by
      cases source
      cases other
      simp_all
    rw [first, ih clear.2 clear'.2 sameRest.symm]

theorem hintedSources_injective (hinted : hintedSources base? document context = .ok sources)
    (hinted' : hintedSources base? document' context' = .ok sources')
    (clear : ∀ source ∈ sources, source.IsClear) (clear' : ∀ source ∈ sources', source.IsClear)
    (same : identityOf sources = identityOf sources') : sources = sources' := by
  have letters := splitOn_identityOf (hintedSources_ne_nil hinted) clear
  rw [same, splitOn_identityOf (hintedSources_ne_nil hinted') clear'] at letters
  have labels : sources.map sourceLabel = sources'.map sourceLabel := by
    refine List.map_injective_iff.2 (fun _ _ => String.toList_inj.1) ?_
    simpa only [List.map_map, Function.comp_def] using letters.symm
  exact sources_eq_of_labels_eq
    (fun source member => ⟨clear source member, content_of_hintedSources hinted source member⟩)
    (fun source member => ⟨clear' source member, content_of_hintedSources hinted' source member⟩)
    labels

end Provider

namespace Validation

theorem Cache.getOrCompile_of_get?_eq_none {β ε σ : Type} (compile : String → List σ → Except ε β)
    {cache : Cache β} {identity : String} (list : List σ) (absent : cache.get? identity = none) :
    cache.getOrCompile compile identity (fun _ => .ok list) =
      match compile identity list with
      | .ok set =>
        (.ok set, ⟨cache.entries ++ [(identity, set)], cache.use.miss.compilation⟩)
      | .error e => (.error e, { cache with use := cache.use.miss.compilation.failure }) := by
  rw [getOrCompile, fetch_of_get?_eq_none absent]
  exact rfl

namespace Validator

open Provider (ClearHints)

variable {base? : Option String} {compile : String → List Source → Except SchemaError Bundle}
  {v : Validator} {document : Bytes} {context : Context} {sources : List Source}

theorem bundleFor_of_error (provider : v.provider = byHints base?) {e : SchemaError}
    (failed : hintedSources base? document context = .error e) :
    v.bundleFor document context = (.error e, v) := by
  have none : (byHints base?).identity? = none := rfl
  simp [bundleFor, provider, none, failed, Except.map]

theorem bundleFor_of_ok (provider : v.provider = byHints base?)
    (hinted : hintedSources base? document context = .ok sources) :
    v.bundleFor document context = v.lookUp (identityOf sources) fun _ => .ok sources := by
  have none : (byHints base?).identity? = none := rfl
  simp [bundleFor, provider, none, hinted, Except.map]

theorem bundleFor_of_identityOf_eq {document' : Bytes} {context' : Context}
    {sources' : List Source} {set : Bundle} (provider : v.provider = byHints base?)
    (hinted : hintedSources base? document context = .ok sources)
    (hinted' : hintedSources base? document' context' = .ok sources')
    (same : identityOf sources = identityOf sources')
    (made : (v.bundleFor document context).1 = .ok set) :
    ((v.bundleFor document context).2.bundleFor document' context').1 = .ok set := by
  rw [bundleFor_of_ok provider hinted] at made ⊢
  have later : (v.lookUp (identityOf sources) fun _ => .ok sources).2.provider = byHints base? :=
    provider
  rw [bundleFor_of_ok later hinted', ← same]
  have kept : (v.lookUp (identityOf sources) fun _ => .ok sources).2.cache.get?
      (identityOf sources) = some set := by
    unfold lookUp at made ⊢
    cases found : v.cache.get? (identityOf sources) with
    | some set' =>
      simp only [Cache.getOrCompile, Cache.fetch_of_get?_eq_some found] at made ⊢
      exact found.trans (congrArg some (Except.ok.inj made))
    | none =>
      rw [Cache.getOrCompile_of_get?_eq_none v.compile sources found] at made ⊢
      cases compiled : v.compile (identityOf sources) sources with
      | error e => simp [compiled] at made
      | ok set' =>
        simp only [compiled, Except.ok.injEq] at made
        simp only [Cache.get?_concat _ _ v.cache.use, if_true, made]
        exact congrArg (Option.or · (some set)) found
  rw [lookUp, Cache.getOrCompile, Cache.fetch_of_get?_eq_some kept]
  rfl

/-- A validator serves sets by hints, and each set in its cache was compiled from the clear sources
of some document, and has the name of these. -/
structure Serves (base? : Option String)
    (compile : String → List Source → Except SchemaError Bundle)
    (v : Validator) : Prop where
  provider : v.provider = byHints base?
  compiler : v.compile = compile
  compiled : ∀ identity set, v.cache.get? identity = some set →
    ∃ document context sources, hintedSources base? document context = .ok sources ∧
      (∀ source ∈ sources, source.IsClear) ∧ identityOf sources = identity ∧
      compile identity sources = .ok set

theorem Serves.bundleFor (serves : v.Serves base? compile)
    (hinted : hintedSources base? document context = .ok sources)
    (clear : ∀ source ∈ sources, source.IsClear) :
    (v.bundleFor document context).1 = compile (identityOf sources) sources ∧
      (v.bundleFor document context).2.Serves base? compile := by
  rw [bundleFor_of_ok serves.provider hinted, lookUp, serves.compiler]
  cases found : v.cache.get? (identityOf sources) with
  | some set =>
    obtain ⟨document', context', sources', hinted', clear', same, compiled⟩ :=
      serves.compiled _ set found
    obtain rfl := Provider.hintedSources_injective hinted' hinted clear' clear same
    simp only [Cache.getOrCompile, Cache.fetch_of_get?_eq_some found]
    exact ⟨compiled.symm, serves.provider, rfl, serves.compiled⟩
  | none =>
    rw [Cache.getOrCompile_of_get?_eq_none compile sources found]
    cases compiled : compile (identityOf sources) sources with
    | error e => exact ⟨rfl, serves.provider, rfl, serves.compiled⟩
    | ok set =>
      refine ⟨rfl, serves.provider, rfl, fun identity set' kept => ?_⟩
      simp only [Cache.get?_concat _ _ v.cache.use, Option.or_eq_some_iff] at kept
      rcases kept with before | ⟨-, now⟩
      · exact serves.compiled identity set' before
      · split at now
        · next same =>
          obtain rfl := Option.some.inj now
          exact ⟨document, context, sources, hinted, clear, same, same ▸ compiled⟩
        · cases now

theorem serves_empty (base? : Option String) (options : Options)
    (compile : String → List Source → Except SchemaError Bundle) :
    Serves base? compile { provider := byHints base?, options, compile } where
  provider := rfl
  compiler := rfl
  compiled identity set kept := by simp [Cache.get?] at kept

def afterAll (v : Validator) (requests : List (Bytes × Context)) : Validator :=
  requests.foldl (fun v request => (v.validate request.1 request.2).2) v

theorem afterAll_singleton : v.afterAll [(document, context)] = (v.bundleFor document context).2 :=
  rfl

theorem Serves.afterAll {requests : List (Bytes × Context)} (serves : v.Serves base? compile)
    (clear : ∀ request ∈ requests, ClearHints base? request.1 request.2) :
    (v.afterAll requests).Serves base? compile := by
  induction requests generalizing v with
  | nil => exact serves
  | cons request requests ih =>
    rw [List.forall_mem_cons] at clear
    refine ih ?_ clear.2
    change (v.bundleFor request.1 request.2).2.Serves base? compile
    cases hinted : hintedSources base? request.1 request.2 with
    | error e =>
      rw [bundleFor_of_error serves.provider hinted]
      exact serves
    | ok sources => exact (serves.bundleFor hinted (clear.1 sources hinted)).2

end Validator

end Validation

namespace Provider

/-- Two documents whose sources are clear have the same sources if they have sets of the same name. So
a validator that has validated any documents with clear sources takes for the next such document what
its own sources compile to. -/
theorem sources_eq_of_identity_eq (base? : Option String) :
    (∀ document document' context context' identity,
      ClearHints base? document context → ClearHints base? document' context' →
      (byHints base?).identityFor document context = .ok identity →
      (byHints base?).identityFor document' context' = .ok identity →
      ∃ sources, (byHints base?).sourcesFor document context = .ok sources ∧
        (byHints base?).sourcesFor document' context' = .ok sources) ∧
    ∀ (options : Options) (compile : String → List Source → Except SchemaError Bundle)
      (requests : List (Bytes × Context)) (document : Bytes) (context : Context)
      (sources : List Source),
      (∀ request ∈ requests, ClearHints base? request.1 request.2) →
      ClearHints base? document context →
      (byHints base?).sourcesFor document context = .ok sources →
      let v := Validator.afterAll { provider := byHints base?, options, compile } requests
      (v.bundleFor document context).1 = compile (identityOf sources) sources := by
  simp only [sourcesFor_byHints, identityFor_byHints]
  constructor
  · intro document document' context context' identity clear clear' named named'
    cases hinted : hintedSources base? document context with
    | error e => simp [hinted, Except.map] at named
    | ok sources =>
      cases hinted' : hintedSources base? document' context' with
      | error e => simp [hinted', Except.map] at named'
      | ok sources' =>
        simp only [hinted, hinted', Except.map, Except.ok.injEq] at named named'
        obtain rfl := hintedSources_injective hinted hinted' (clear _ hinted) (clear' _ hinted')
          (named.trans named'.symm)
        exact ⟨sources, rfl, rfl⟩
  · intro options compile requests document context sources clear clear' hinted
    have serves := (Validator.serves_empty base? options compile).afterAll clear
    exact (serves.bundleFor hinted (clear' sources hinted)).1

def placesOf (_ : String) (sources : List Source) : Except SchemaError Bundle :=
  .ok { identity := "", symbols := {}, pool := {}, validNamespaces := sources.map (·.systemId) }

def hintedDocument (hints : String) : Bytes :=
  Utf8.encode ("<list " ++ hints ++
    " end=\">\" xmlns:i.=\"http://www.w3.org/2001/XMLSchema-instance\"/>")

def pairDocument : Bytes := hintedDocument "i.:schemaLocation=\"a a.xsd b b=1.xsd\""

def spacedDocument : Bytes := hintedDocument "i.:schemaLocation = ' a  a.xsd\tb b=1.xsd '"

def pairSources : List Source := [⟨some "a", "a.xsd", none⟩, ⟨some "b", "b=1.xsd", none⟩]

theorem ok_of_toOption_eq_some {result : Except SchemaError (List Source)} {list : List Source}
    (given : result.toOption = some list) : result = .ok list := by
  cases result with
  | error e => cases given
  | ok list => exact congrArg Except.ok (Option.some.inj given)

theorem hintedSources_pairDocument : hintedSources none pairDocument {} = .ok pairSources :=
  ok_of_toOption_eq_some (by decide +kernel)

theorem hintedSources_spacedDocument : hintedSources none spacedDocument {} = .ok pairSources :=
  ok_of_toOption_eq_some (by decide +kernel)

theorem isClear_of_mem_pairSources : ∀ source ∈ pairSources, source.IsClear := by
  simp only [pairSources, List.forall_mem_cons]
  refine ⟨⟨?_, by decide, nofun⟩, ⟨?_, by decide, nofun⟩, fun _ none => nomatch none⟩
  · rintro ns ⟨⟩
    decide
  · rintro ns ⟨⟩
    decide

theorem clearHints_of_eq_pairSources
    (hinted : hintedSources none document {} = .ok pairSources) : ClearHints none document {} := by
  intro sources given
  rw [hinted] at given
  obtain rfl := Except.ok.inj given
  exact isClear_of_mem_pairSources

theorem sources_eq_of_identity_eq_pair :
    (∃ sources, (byHints none).sourcesFor pairDocument {} = .ok sources ∧
      (byHints none).sourcesFor spacedDocument {} = .ok sources) ∧
    ((Validator.afterAll { provider := byHints none, compile := placesOf }
      [(pairDocument, {})]).bundleFor spacedDocument {}).1 =
        placesOf (identityOf pairSources) pairSources := by
  obtain ⟨determined, served⟩ := sources_eq_of_identity_eq none
  have clear := clearHints_of_eq_pairSources hintedSources_pairDocument
  have clear' := clearHints_of_eq_pairSources hintedSources_spacedDocument
  constructor
  · refine determined _ _ {} {} (identityOf pairSources) clear clear' ?_ ?_
    · rw [identityFor_byHints, hintedSources_pairDocument, Except.map]
    · rw [identityFor_byHints, hintedSources_spacedDocument, Except.map]
  · refine served {} placesOf [(pairDocument, {})] spacedDocument {} pairSources ?_ clear' ?_
    · simpa using clear
    · rw [sourcesFor_byHints, hintedSources_spacedDocument]

def unqualifiedDocument : Bytes := hintedDocument "i.:noNamespaceSchemaLocation=\"a=b.xsd\""

def qualifiedDocument : Bytes := hintedDocument "i.:schemaLocation=\"a b.xsd\""

theorem hintedSources_unqualifiedDocument :
    hintedSources none unqualifiedDocument {} = .ok [⟨none, "a=b.xsd", none⟩] :=
  ok_of_toOption_eq_some (by decide +kernel)

theorem hintedSources_qualifiedDocument :
    hintedSources none qualifiedDocument {} = .ok [⟨some "a", "b.xsd", none⟩] :=
  ok_of_toOption_eq_some (by decide +kernel)

/-- The names of schema sets do not keep their sources apart: a schema in a file `a=b.xsd` has the
label of one for the namespace `a` in a file `b.xsd`. Of two documents that name these the second is
validated against the schema of the first. -/
theorem identity_eq_of_other_sources :
    (byHints none).identityFor unqualifiedDocument {} = .ok "a=b.xsd" ∧
      (byHints none).identityFor qualifiedDocument {} = .ok "a=b.xsd" ∧
      (byHints none).sourcesFor unqualifiedDocument {} = .ok [⟨none, "a=b.xsd", none⟩] ∧
      (byHints none).sourcesFor qualifiedDocument {} = .ok [⟨some "a", "b.xsd", none⟩] ∧
      ((Validator.afterAll { provider := byHints none, compile := placesOf }
        [(unqualifiedDocument, {})]).bundleFor qualifiedDocument {}).1 =
          placesOf "a=b.xsd" [⟨none, "a=b.xsd", none⟩] := by
  have identity : identityOf [⟨none, "a=b.xsd", none⟩] = "a=b.xsd" := by decide
  have identity' : identityOf [⟨some "a", "b.xsd", none⟩] = "a=b.xsd" := by decide
  refine ⟨?_, ?_, ?_, ?_, ?_⟩
  · rw [identityFor_byHints, hintedSources_unqualifiedDocument, Except.map, identity]
  · rw [identityFor_byHints, hintedSources_qualifiedDocument, Except.map, identity']
  · rw [sourcesFor_byHints, hintedSources_unqualifiedDocument]
  · rw [sourcesFor_byHints, hintedSources_qualifiedDocument]
  · have provider : ({ provider := byHints none, compile := placesOf } : Validator).provider =
        byHints none := rfl
    rw [Validator.afterAll_singleton]
    refine Validator.bundleFor_of_identityOf_eq provider hintedSources_unqualifiedDocument
      hintedSources_qualifiedDocument (identity.trans identity'.symm) ?_
    rw [Validator.bundleFor_of_ok provider hintedSources_unqualifiedDocument]
    rfl

end Provider

end XmlSchema
