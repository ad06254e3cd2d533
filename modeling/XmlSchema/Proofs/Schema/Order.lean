import XmlSchema.Proofs.Schema.Confluence
import XmlSchema.Proofs.Text.Ascii

namespace XmlSchema

open Component

structure Bundle.Agrees (bundle other : Bundle) : Prop where
  pool : bundle.pool.Agrees other.pool
  validNamespaces : ∀ ns, ns ∈ bundle.validNamespaces ↔ ns ∈ other.validNamespaces

namespace Schema

/-- The schema document of a source, if it can be read. -/
def Source.document? (files : Files.Tree) (source : Source) : Option Document :=
  match source.load files with
  | .ok text => (documentOf (source.systemId, text)).toOption
  | .error _ => none

def Source.StandsAlone (files : Files.Tree) (source : Source) : Prop :=
  ∀ text, source.load files = .ok text → Schema.StandsAlone (source.systemId, text)

variable {files : Files.Tree} {source : Source} {sources sources' : List Source}
  {loaded : List LoadedSource}

theorem loadAll_cons_eq_ok : loadAll files (source :: sources) = .ok loaded ↔
    ∃ text more, source.load files = .ok text ∧ loadAll files sources = .ok more ∧
      loaded = (source.systemId, text) :: more := by
  simp only [loadAll, bind, Except.bind, pure, Except.pure]
  cases source.load files with
  | error fault => simp
  | ok text =>
    cases loadAll files sources with
    | error fault => simp
    | ok more => simp [eq_comm]

theorem loadAll_perm (perm : sources.Perm sources') (loads : loadAll files sources = .ok loaded) :
    ∃ loaded', loadAll files sources' = .ok loaded' ∧ loaded.Perm loaded' := by
  induction perm generalizing loaded with
  | nil => exact ⟨loaded, loads, .refl _⟩
  | cons source _ ih =>
    obtain ⟨text, more, load, loadsMore, rfl⟩ := loadAll_cons_eq_ok.1 loads
    obtain ⟨more', loadsMore', perm⟩ := ih loadsMore
    exact ⟨_, loadAll_cons_eq_ok.2 ⟨text, more', load, loadsMore', rfl⟩, perm.cons _⟩
  | swap first second rest =>
    obtain ⟨text, _, load, loadsRest, rfl⟩ := loadAll_cons_eq_ok.1 loads
    obtain ⟨text', more, load', loadsMore, rfl⟩ := loadAll_cons_eq_ok.1 loadsRest
    have swapped := loadAll_cons_eq_ok.2 ⟨text', _, load',
      loadAll_cons_eq_ok.2 ⟨text, more, load, loadsMore, rfl⟩, rfl⟩
    exact ⟨_, swapped, .swap _ _ _⟩
  | trans _ _ ih ih' =>
    obtain ⟨middle, loadsMiddle, perm⟩ := ih loads
    obtain ⟨loaded', loads', perm'⟩ := ih' loadsMiddle
    exact ⟨loaded', loads', perm.trans perm'⟩

theorem standsAlone_of_loadAll (alone : ∀ source ∈ sources, source.StandsAlone files)
    (loads : loadAll files sources = .ok loaded) : ∀ source ∈ loaded, StandsAlone source := by
  induction sources generalizing loaded with
  | nil =>
    cases loads
    exact fun _ member => nomatch member
  | cons source sources ih =>
    obtain ⟨text, more, load, loadsMore, rfl⟩ := loadAll_cons_eq_ok.1 loads
    obtain ⟨aloneFirst, aloneRest⟩ := List.forall_mem_cons.1 alone
    exact List.forall_mem_cons.2 ⟨aloneFirst text load, ih aloneRest loadsMore⟩

theorem systemIds_loadAll (loads : loadAll files sources = .ok loaded) :
    loaded.map (fun source => normalizeLocation source.1) =
      sources.map fun source => normalizeLocation source.systemId := by
  induction sources generalizing loaded with
  | nil =>
    cases loads
    rfl
  | cons source sources ih =>
    obtain ⟨text, more, load, loadsMore, rfl⟩ := loadAll_cons_eq_ok.1 loads
    rw [List.map_cons, List.map_cons, ih loadsMore]

theorem documentsOf_loadAll (loads : loadAll files sources = .ok loaded) :
    documentsOf loaded = sources.filterMap (Source.document? files) := by
  induction sources generalizing loaded with
  | nil =>
    cases loads
    rfl
  | cons source sources ih =>
    obtain ⟨text, more, load, loadsMore, rfl⟩ := loadAll_cons_eq_ok.1 loads
    have first : source.document? files = (documentOf (source.systemId, text)).toOption := by
      rw [Source.document?, load]
    simp only [documentsOf, List.filterMap_cons, first]
    rw [← ih loadsMore]
    rfl

theorem compile_eq_ok_of_perm {identity : String} {bundle : Bundle} (perm : sources.Perm sources')
    (alone : ∀ source ∈ sources, source.StandsAlone files)
    (distinct : (sources.map fun source => normalizeLocation source.systemId).Nodup)
    (undisputed : Undisputed (sources.filterMap (Source.document? files)))
    (compiled : compile files false identity sources = .ok bundle) :
    ∃ bundle', compile files false identity sources' = .ok bundle' ∧ bundle.Agrees bundle' := by
  obtain ⟨given, loaded, p, deferred, q, loads, passed, finishes, rfl⟩ := compile_eq_ok_iff.1 compiled
  obtain ⟨loaded', loads', permLoaded⟩ := loadAll_perm perm loads
  have aloneLoaded := standsAlone_of_loadAll alone loads
  rw [← systemIds_loadAll loads] at distinct
  rw [← documentsOf_loadAll loads] at undisputed
  obtain ⟨done, ended⟩ := ended_of_passes rfl aloneLoaded passed
  have noFiles : (libraryOf files false loaded').files = none := rfl
  obtain ⟨p', deferred', passed', done', ended'⟩ :=
    ended.passes undisputed permLoaded noFiles aloneLoaded
  obtain ⟨q', finishes', agrees⟩ :=
    ended.finishes ended' undisputed permLoaded rfl noFiles aloneLoaded distinct finishes
  have given' : sources' ≠ [] := fun none => given (perm.trans (by rw [none])).eq_nil
  exact ⟨_, compile_eq_ok_iff.2 ⟨given', loaded', p', deferred', q', loads', passed', finishes', rfl⟩,
    agrees.1, agrees.2⟩

/-- The order of sources does not matter, if none includes another document, if they have different
names and if no component is defined twice. -/
theorem compile_perm {identity : String} (perm : sources.Perm sources')
    (alone : ∀ source ∈ sources, source.StandsAlone files)
    (distinct : (sources.map fun source => normalizeLocation source.systemId).Nodup)
    (undisputed : Undisputed (sources.filterMap (Source.document? files))) :
    ((∃ bundle, compile files false identity sources = .ok bundle) ↔
      ∃ bundle, compile files false identity sources' = .ok bundle) ∧
    ∀ bundle bundle', compile files false identity sources = .ok bundle →
      compile files false identity sources' = .ok bundle' → bundle.Agrees bundle' := by
  have alone' : ∀ source ∈ sources', source.StandsAlone files := fun source member =>
    alone source (perm.mem_iff.2 member)
  refine ⟨⟨?_, ?_⟩, ?_⟩
  · rintro ⟨bundle, compiled⟩
    obtain ⟨bundle', compiled', _⟩ := compile_eq_ok_of_perm perm alone distinct undisputed compiled
    exact ⟨bundle', compiled'⟩
  · rintro ⟨bundle, compiled⟩
    obtain ⟨bundle', compiled', _⟩ := compile_eq_ok_of_perm perm.symm alone'
      ((perm.map _).nodup_iff.1 distinct) (undisputed.perm (perm.filterMap _)) compiled
    exact ⟨bundle', compiled'⟩
  · intro bundle bundle' compiled compiled'
    obtain ⟨other, compiledOther, agrees⟩ :=
      compile_eq_ok_of_perm perm alone distinct undisputed compiled
    obtain rfl : other = bundle' := Except.ok.inj (compiledOther.symm.trans compiled')
    exact agrees

def compilesInOrder (pool : Pool) : List LoadedSource → Bool
  | [] => true
  | source :: rest =>
    match attempt pool source with
    | .ok grammars => compilesInOrder (grammars.foldl Pool.insert pool) rest
    | .error _ => false

theorem pass_of_inOrder {lib : Library} (noFiles : lib.files = none)
    (alone : ∀ source ∈ loaded, Schema.StandsAlone source) {p : Progress}
    (compiles : compilesInOrder p.pool loaded = true) :
    ∃ p' changed, p.pass lib loaded = .ok (p', [], changed) := by
  induction loaded generalizing p with
  | nil => exact ⟨p, false, rfl⟩
  | cons source rest ih =>
    obtain ⟨aloneFirst, aloneRest⟩ := List.forall_mem_cons.1 alone
    have tried := compileUnit_eq_attempt noFiles aloneFirst p
    have samePool := Progress.pool_compileUnit lib p [source]
    unfold compilesInOrder at compiles
    rcases compiled : p.compileUnit lib [source] with ⟨result, q⟩
    rw [compiled] at tried samePool
    subst tried
    cases found : attempt p.pool source with
    | error fault => simp [found] at compiles
    | ok grammars =>
      simp only [found] at compiles
      rw [← samePool] at compiles
      obtain ⟨p', changed, passed⟩ := ih (p := q.register grammars) aloneRest compiles
      rw [found] at compiled
      exact ⟨p', true, Progress.pass_eq_ok_iff.2
        (.takeIn compiled (Progress.pass_eq_ok_iff.1 passed))⟩

theorem exists_compile_of_inOrder (files : Files.Tree) (identity : String) (given : sources ≠ [])
    (alone : ∀ source ∈ sources, source.StandsAlone files)
    (loads : loadAll files sources = .ok loaded) (compiles : compilesInOrder {} loaded = true) :
    ∃ bundle, compile files false identity sources = .ok bundle := by
  have noFiles : (libraryOf files false loaded).files = none := rfl
  obtain ⟨p, changed, passed⟩ :=
    pass_of_inOrder (p := {}) noFiles (standsAlone_of_loadAll alone loads) compiles
  have ended : Progress.passes (libraryOf files false loaded) loaded.length {} loaded =
      .ok (p, []) := by
    cases loaded with
    | nil =>
      cases passed
      rfl
    | cons source rest =>
      rw [List.length_cons, Progress.passes, passed]
      rfl
  exact ⟨_, compile_eq_ok_iff.2 ⟨given, loaded, p, [], p, loads, ended, .done, rfl⟩⟩

instance (source : LoadedSource) : Decidable (Schema.StandsAlone source) :=
  decidable_of_iff ((parse source.1 source.2).toOption.all fun root =>
      (schemaChildren root).all fun child => child.name.localName != "include") (by
    unfold Schema.StandsAlone
    cases parse source.1 source.2 <;> simp [Except.toOption])

instance (docs : List Document) : Decidable (Undisputed docs) :=
  inferInstanceAs (Decidable (List.Nodup _))

theorem standsAlone_of_content {text : String} (given : source.content = some text)
    (alone : Schema.StandsAlone (source.systemId, text)) : source.StandsAlone files :=
  fun text' load => by
    rw [Source.load, given] at load
    cases load
    exact alone

def commonText : String :=
  "<s:schema xmlns:s='http://www.w3.org/2001/XMLSchema' targetNamespace='urn:c'>
    <s:element name='note'/><s:complexType name='Entry'/></s:schema>"

def orderText : String :=
  "<s:schema xmlns:s='http://www.w3.org/2001/XMLSchema' xmlns:c='urn:c'>
    <s:import namespace='urn:c'/><s:element name='order' type='c:Entry'/>
    <s:group name='notes'><s:sequence><s:element ref='c:note'/></s:sequence></s:group></s:schema>"

def commonSource : Source := { systemId := "common.xsd", content := some commonText }

def orderSource : Source := { systemId := "order.xsd", content := some orderText }

-- One evaluation for all, because reading the texts is what takes the time. They are bound here so
-- that they are read where they are evaluated.
set_option maxRecDepth 100000 in
theorem commonText_orderText : ∀ common ∈ [("common.xsd", commonText)],
    ∀ order ∈ [("order.xsd", orderText)],
      (∀ source ∈ [common, order], ∀ root ∈ (parse source.1 source.2).toOption,
        ∀ child ∈ schemaChildren root, child.name.localName ≠ "include") ∧
      ([common, order].map fun source => normalizeLocation source.1).Nodup ∧
      Undisputed (documentsOf [common, order]) ∧ compilesInOrder {} [common, order] = true := by
  simp only [compilesInOrder]
  delta documentsOf attempt documentOf parse Xml.parse? String.length
  rewrite [Text.toList_eq_letters]
  decide +kernel

theorem commonSource_orderSource :
    (Schema.StandsAlone ("common.xsd", commonText) ∧ Schema.StandsAlone ("order.xsd", orderText)) ∧
      Undisputed (documentsOf [("common.xsd", commonText), ("order.xsd", orderText)]) ∧
      compilesInOrder {} [("common.xsd", commonText), ("order.xsd", orderText)] = true := by
  obtain ⟨noIncludes, _, rest⟩ := commonText_orderText _ (List.mem_singleton_self _) _
    (List.mem_singleton_self _)
  have alone (source : LoadedSource)
      (member : source ∈ [("common.xsd", commonText), ("order.xsd", orderText)]) :
      Schema.StandsAlone source := fun root read => noIncludes source member root (by rw [read]; rfl)
  exact ⟨⟨alone ("common.xsd", commonText) (by simp), alone ("order.xsd", orderText) (by simp)⟩, rest⟩

theorem commonSource_orderSource_distinct :
    ([commonSource, orderSource].map fun source => normalizeLocation source.systemId).Nodup :=
  (commonText_orderText _ (List.mem_singleton_self _) _ (List.mem_singleton_self _)).2.1

theorem commonSource_orderSource_standAlone :
    ∀ source ∈ [commonSource, orderSource], source.StandsAlone files := by
  obtain ⟨⟨common, order⟩, _⟩ := commonSource_orderSource
  simp only [List.forall_mem_cons]
  exact ⟨standsAlone_of_content rfl common, standsAlone_of_content rfl order, by simp⟩

theorem exists_compile_commonSource_orderSource :
    ∃ bundle, compile {} false "orders" [commonSource, orderSource] = .ok bundle :=
  exists_compile_of_inOrder {} "orders" (List.cons_ne_nil _ _) commonSource_orderSource_standAlone rfl
    commonSource_orderSource.2.2

theorem compile_orderSource_commonSource :
    ∃ bundle bundle', compile {} false "orders" [commonSource, orderSource] = .ok bundle ∧
      compile {} false "orders" [orderSource, commonSource] = .ok bundle' ∧ bundle.Agrees bundle' := by
  have loads : loadAll {} [commonSource, orderSource] =
      .ok [("common.xsd", commonText), ("order.xsd", orderText)] := rfl
  have undisputed := commonSource_orderSource.2.1
  rw [documentsOf_loadAll loads] at undisputed
  obtain ⟨sameSuccess, sameResult⟩ := @compile_perm {} _ _ "orders"
    (.swap orderSource commonSource []) commonSource_orderSource_standAlone
    commonSource_orderSource_distinct undisputed
  obtain ⟨bundle, compiled⟩ := exists_compile_commonSource_orderSource
  obtain ⟨bundle', compiled'⟩ := sameSuccess.1 ⟨bundle, compiled⟩
  exact ⟨bundle, bundle', compiled, compiled', sameResult bundle bundle' compiled compiled'⟩

end Schema

end XmlSchema
