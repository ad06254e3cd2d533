import XmlSchema.Pattern.Facet
import XmlSchema.Proofs.Regex.Parsing

namespace XmlSchema.Pattern

open Regex (Expr parse?)

/-- The regular expression that a pattern stands for by itself. -/
def IsTranslation (source : String) (e : Expr) : Prop :=
  ∃ text, translate source = .ok text ∧ parse? text.toList = some e

/-- Whether a pattern stands for a regular expression that matches a value from its first to its last
character. -/
def MatchesWhole (source value : String) : Prop :=
  ∃ e, IsTranslation source e ∧ e.Spans none value.toList none

variable {source : String} {e p : Expr}

theorem anchored_eq_ok_iff : anchored source = .ok p ↔ ∃ text, translate source = .ok text ∧
    parse? ('^' :: '(' :: '?' :: ':' :: (text.toList ++ [')', '$'])) = some p := by
  unfold anchored
  cases translate source with
  | error fault => simp [bind, Except.bind]
  | ok text =>
    have spelled : ("^(?:" ++ text ++ ")$").toList =
        '^' :: '(' :: '?' :: ':' :: (text.toList ++ [')', '$']) := by simp
    simp only [bind, Except.bind, spelled, Except.ok.injEq, exists_eq_left']
    cases parse? ('^' :: '(' :: '?' :: ':' :: (text.toList ++ [')', '$'])) with
    | none => simp [throw, throwThe, MonadExceptOf.throw]
    | some p => simp [pure, Except.pure]

theorem finds_anchored_iff (alone : IsTranslation source e) (known : anchored source = .ok p)
    (value : List Char) : p.finds value = true ↔ e.Spans none value none := by
  obtain ⟨text, translated, parsed⟩ := alone
  obtain ⟨text', translated', parsed'⟩ := anchored_eq_ok_iff.1 known
  rw [translated] at translated'
  cases translated'
  rw [Regex.Syntax.parse?_anchored parsed parsed']
  exact Expr.finds_anchored (Regex.Syntax.parse?_wellFormed parsed)

theorem map_anchored_of_compileAll {sources : List String} {expressions : List Expr}
    (compiled : compileAll sources = .ok expressions) :
    sources.map anchored = expressions.map .ok := by
  induction sources generalizing expressions with
  | nil =>
    cases compiled
    rfl
  | cons source sources ih =>
    rw [compileAll] at compiled
    cases known : anchored source with
    | error fault =>
      rw [known] at compiled
      cases compiled
    | ok p =>
      cases others : compileAll sources with
      | error fault =>
        rw [known, others] at compiled
        cases compiled
      | ok rest =>
        rw [known, others] at compiled
        cases compiled
        rw [List.map_cons, List.map_cons, known, ih others]

/-- A facet of patterns that stand for regular expressions by themselves accepts the values that one
of these matches from the first to the last character. -/
theorem accepts_iff_matchesWhole {sources : List String} {facet : Facet}
    (compiled : Facet.compile sources = .ok facet)
    (complete : ∀ source ∈ sources, ∃ e, IsTranslation source e) (value : String) :
    facet.accepts value = true ↔ ∃ source ∈ sources, MatchesWhole source value := by
  unfold Facet.compile at compiled
  cases known : compileAll sources with
  | error fault =>
    rw [known] at compiled
    cases compiled
  | ok expressions =>
    rw [known] at compiled
    cases compiled
    have same := map_anchored_of_compileAll known
    rw [Facet.accepts, List.any_eq_true]
    constructor
    · rintro ⟨p, member, found⟩
      have compiled : Except.ok p ∈ sources.map anchored := same ▸ List.mem_map_of_mem member
      obtain ⟨source, among, isAnchored⟩ := List.mem_map.1 compiled
      obtain ⟨e, alone⟩ := complete source among
      exact ⟨source, among, e, alone, (finds_anchored_iff alone isAnchored _).1 found⟩
    · rintro ⟨source, among, e, alone, spanned⟩
      have compiled : anchored source ∈ expressions.map .ok := same ▸ List.mem_map_of_mem among
      obtain ⟨p, member, isAnchored⟩ := List.mem_map.1 compiled
      exact ⟨p, member, (finds_anchored_iff alone isAnchored.symm _).2 spanned⟩

theorem accepts_letters : ∃ facet, Facet.compile ["a+|b"] = .ok facet ∧
    facet.accepts "aa" = true ∧ ∃ source ∈ ["a+|b"], MatchesWhole source "aa" := by
  have complete : ∀ source ∈ ["a+|b"], ∃ e, IsTranslation source e := by
    intro source among
    cases List.mem_singleton.1 among
    exact ⟨_, "a+|b", rfl, rfl⟩
  have accepted := accepts_iff_matchesWhole rfl complete "aa"
  exact ⟨_, rfl, rfl, accepted.1 rfl⟩

/-- A pattern that closes the group around it and opens another one is compiled, but it stands for no
regular expression by itself, and a part of a value is enough for it. -/
theorem compile_partial : translate "a)|(?:b" = .ok "a)|(?:b" ∧ parse? "a)|(?:b".toList = none ∧
    ∃ facet, Facet.compile ["a)|(?:b"] = .ok facet ∧ facet.accepts "axxx" = true :=
  ⟨rfl, rfl, _, rfl, rfl⟩

end XmlSchema.Pattern
