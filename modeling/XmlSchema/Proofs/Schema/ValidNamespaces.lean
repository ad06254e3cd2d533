import XmlSchema.Proofs.Component.Imports
import XmlSchema.Proofs.Schema.Order
import XmlSchema.Proofs.Text.Ascii

namespace XmlSchema.Schema

open Component

namespace Progress

structure KnowsReached (p : Progress) : Prop where
  distinct : (p.pool.grammars.map (·.target)).Nodup
  valid : ∀ ns, ns ∈ p.validNamespaces ↔ ∃ g ∈ p.pool.grammars, p.pool.Reaches g.target ns

variable {p : Progress}

theorem KnowsReached.target (knows : p.KnowsReached) {g : Grammar} (member : g ∈ p.pool.grammars) :
    g.target ∈ p.validNamespaces :=
  (knows.valid _).2 ⟨g, member, .refl⟩

theorem KnowsReached.closed (knows : p.KnowsReached) {importer ns : String}
    (valid : importer ∈ p.validNamespaces) (imported : p.pool.Imports importer ns) :
    ns ∈ p.validNamespaces := by
  obtain ⟨g, member, reached⟩ := (knows.valid _).1 valid
  exact (knows.valid _).2 ⟨g, member, reached.tail imported⟩

theorem reaches_foldl_insert (grammars : List Grammar) {pool : Pool} {start ns : String}
    (reached : pool.Reaches start ns) : (grammars.foldl Pool.insert pool).Reaches start ns :=
  Relation.ReflTransGen.mono
    (fun _ _ imported => (Pool.imports_foldl_insert grammars pool _ _).2 (.inl imported)) _ _ reached

theorem KnowsReached.register (knows : p.KnowsReached) (grammars : List Grammar) :
    (p.register grammars).KnowsReached := by
  have distinct := Pool.nodup_targets_foldl_insert knows.distinct grammars
  have targets := Pool.exists_target_foldl_insert grammars p.pool
  have imports := Pool.imports_foldl_insert grammars p.pool
  have mem_iff (ns : String) : ns ∈ (p.register grammars).validNamespaces ↔
      ns ∈ p.validNamespaces ∨
        ∃ g ∈ grammars, (grammars.foldl Pool.insert p.pool).Reaches g.target ns := by
    simp only [Progress.register, mem_foldl_addMissing, Pool.mem_transitiveNamespaces_iff,
      Pool.follows_eq_imports distinct]
    rfl
  refine ⟨distinct, fun ns => ⟨fun valid => ?_, ?_⟩⟩
  · rcases (mem_iff ns).1 valid with old | ⟨g, member, reached⟩
    · obtain ⟨g, member, reached⟩ := (knows.valid ns).1 old
      obtain ⟨h, isNow, same⟩ := (targets g.target).2 (.inl ⟨g, member, rfl⟩)
      exact ⟨h, isNow, same ▸ reaches_foldl_insert grammars reached⟩
    · obtain ⟨h, isNow, same⟩ := (targets g.target).2 (.inr ⟨g, member, rfl⟩)
      exact ⟨h, isNow, same ▸ reached⟩
  · rintro ⟨h, member, reached⟩
    induction reached with
    | refl =>
      rcases (targets h.target).1 ⟨h, member, rfl⟩ with ⟨g, old, same⟩ | ⟨g, new, same⟩
      · exact (mem_iff _).2 (.inl (same ▸ knows.target old))
      · exact (mem_iff _).2 (.inr ⟨g, new, same ▸ .refl⟩)
    | @tail importer ns _ imported ih =>
      -- What was valid before may have been given new imports, by a grammar that comes now.
      rcases (mem_iff importer).1 ih with old | ⟨g, new, reached⟩
      · rcases (imports importer ns).1 imported with importedBefore | ⟨g, new, same, importsIt⟩
        · exact (mem_iff ns).2 (.inl (knows.closed old importedBefore))
        · exact (mem_iff ns).2 (.inr ⟨g, new, .single (same ▸ imported)⟩)
      · exact (mem_iff ns).2 (.inr ⟨g, new, reached.tail imported⟩)

theorem Advances.knowsReached {lib : Library} {loaded : List LoadedSource} {p' : Progress}
    (advances : Advances lib loaded p p') (knows : p.KnowsReached) : p'.KnowsReached := by
  induction advances with
  | refl p => exact knows
  | @skip p q _ sources _ failed _ ih =>
    have samePool : q.pool = p.pool := by rw [← pool_compileUnit lib p sources, failed]
    have sameValid : q.validNamespaces = p.validNamespaces := by
      rw [← validNamespaces_compileUnit lib p sources, failed]
    exact ih ⟨samePool ▸ knows.distinct, samePool ▸ sameValid ▸ knows.valid⟩
  | @take p q _ sources grammars _ compiled _ ih =>
    have samePool : q.pool = p.pool := by rw [← pool_compileUnit lib p sources, compiled]
    have sameValid : q.validNamespaces = p.validNamespaces := by
      rw [← validNamespaces_compileUnit lib p sources, compiled]
    have knowsNow : q.KnowsReached :=
      ⟨samePool ▸ knows.distinct, samePool ▸ sameValid ▸ knows.valid⟩
    exact ih (knowsNow.register grammars)

end Progress

/-- In a compiled schema set, the namespaces that documents may use are those that are reached
through imports from the target namespace of a grammar. So all that is imported is among them, and
what those import in turn. -/
theorem mem_validNamespaces_iff {files : Files.Tree} {discover : Bool} {identity : String}
    {sources : List Source} {bundle : Bundle}
    (compiled : compile files discover identity sources = .ok bundle) :
    (∀ ns, ns ∈ bundle.validNamespaces ↔
        ∃ g ∈ bundle.pool.grammars, bundle.pool.Reaches g.target ns) ∧
      (∀ g ∈ bundle.pool.grammars, ∀ ns ∈ g.imports, ns ∈ bundle.validNamespaces) ∧
      ∀ importer ns, importer ∈ bundle.validNamespaces → bundle.pool.Imports importer ns →
        ns ∈ bundle.validNamespaces := by
  obtain ⟨_, loaded, _, _, _, loads, _⟩ := compile_eq_ok_iff.1 compiled
  obtain ⟨q, advances, rfl⟩ := compile_advances loads compiled
  have knows : q.KnowsReached :=
    advances.knowsReached ⟨List.nodup_nil, fun ns => by simp⟩
  exact ⟨knows.valid,
    fun g member ns imported => knows.closed (knows.target member) ⟨g, member, rfl, imported⟩,
    fun _ _ => knows.closed⟩

def earlyText : String :=
  "<s:schema xmlns:s='http://www.w3.org/2001/XMLSchema' targetNamespace='urn:early'>
    <s:import namespace='urn:late'/></s:schema>"

def lateText : String :=
  "<s:schema xmlns:s='http://www.w3.org/2001/XMLSchema' targetNamespace='urn:late'>
    <s:import namespace='urn:early'/><s:import/><s:import namespace='urn:none'/></s:schema>"

def earlySource : Source := { systemId := "early.xsd", content := some earlyText }

def lateSource : Source := { systemId := "late.xsd", content := some lateText }

-- The texts are bound here so that they are read where they are evaluated.
set_option maxRecDepth 100000 in
theorem earlyText_lateText_inOrder : ∀ early ∈ [("early.xsd", earlyText)],
    ∀ late ∈ [("late.xsd", lateText)],
      (∀ source ∈ [early, late], ∀ root ∈ (parse source.1 source.2).toOption,
        ∀ child ∈ schemaChildren root, child.name.localName ≠ "include") ∧
      compilesInOrder {} [early, late] = true := by
  simp only [compilesInOrder]
  delta attempt documentOf parse Xml.parse? String.length
  rewrite [Text.toList_eq_letters]
  decide +kernel

theorem mem_validNamespaces_iff_early_late : ∃ bundle,
    compile {} false "early" [earlySource, lateSource] = .ok bundle ∧
      (∀ ns, ns ∈ bundle.validNamespaces ↔
        ∃ g ∈ bundle.pool.grammars, bundle.pool.Reaches g.target ns) ∧
      (∀ g ∈ bundle.pool.grammars, ∀ ns ∈ g.imports, ns ∈ bundle.validNamespaces) ∧
      ∀ importer ns, importer ∈ bundle.validNamespaces → bundle.pool.Imports importer ns →
        ns ∈ bundle.validNamespaces := by
  obtain ⟨noIncludes, inOrder⟩ := earlyText_lateText_inOrder _ (List.mem_singleton_self _) _
    (List.mem_singleton_self _)
  have alone (source : LoadedSource)
      (member : source ∈ [("early.xsd", earlyText), ("late.xsd", lateText)]) :
      StandsAlone source := fun root read => noIncludes source member root (by rw [read]; rfl)
  have standAlone : ∀ source ∈ [earlySource, lateSource], source.StandsAlone {} := by
    simp only [List.forall_mem_cons]
    exact ⟨standsAlone_of_content rfl (alone ("early.xsd", earlyText) (by simp)),
      standsAlone_of_content rfl (alone ("late.xsd", lateText) (by simp)), by simp⟩
  obtain ⟨bundle, compiled⟩ :=
    exists_compile_of_inOrder {} "early" (List.cons_ne_nil _ _) standAlone rfl inOrder
  exact ⟨bundle, compiled, mem_validNamespaces_iff compiled⟩

end XmlSchema.Schema
