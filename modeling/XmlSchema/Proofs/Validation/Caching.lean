import Mathlib.Data.List.Basic
import XmlSchema.Validation.Cache

namespace XmlSchema.Validation.Cache

variable {β ε σ ω : Type}

structure Request (ω ε σ : Type) where
  identity : String
  sources : Unit → StateM ω (Except ε (List σ))

structure Answer (ε β : Type) where
  identity : String
  isHit : Bool
  result : Except ε β

def serve (compile : String → List σ → StateM ω (Except ε β)) :
    Cache β → List (Request ω ε σ) → StateM ω (List (Answer ε β) × Cache β)
  | cache, [] => pure ([], cache)
  | cache, request :: requests => do
    let (result, after) ← cache.fetch compile request.identity request.sources
    let (answers, final) ← serve compile after requests
    pure (⟨request.identity, cache.contains request.identity, result⟩ :: answers, final)

def Answer.made? (answer : Answer ε β) (identity : String) : Option β :=
  if answer.identity = identity ∧ answer.isHit = false then answer.result.toOption else none

def firstMade (answers : List (Answer ε β)) (identity : String) : Option β :=
  answers.findSome? (·.made? identity)

theorem firstMade_append (answers more : List (Answer ε β)) (identity : String) :
    firstMade (answers ++ more) identity =
      (firstMade answers identity).or (firstMade more identity) :=
  List.findSome?_append

theorem firstMade_singleton (answer : Answer ε β) (identity : String) :
    firstMade [answer] identity = answer.made? identity := by
  rw [firstMade, List.findSome?_singleton]

theorem Answer.made?_of_isHit {answer : Answer ε β} (isHit : answer.isHit = true)
    (identity : String) : answer.made? identity = none := by
  simp [made?, isHit]

theorem Answer.made?_of_error {answer : Answer ε β} {e : ε} (failed : answer.result = .error e)
    (identity : String) : answer.made? identity = none := by
  simp [made?, failed, Except.toOption]

theorem fetch_of_get?_eq_some {m : Type → Type} [Monad m]
    {compile : String → List σ → m (Except ε β)} {cache : Cache β} {identity : String}
    {sources : Unit → m (Except ε (List σ))} {set : β} (found : cache.get? identity = some set) :
    cache.fetch compile identity sources =
      pure (.ok set, { cache with use := cache.use.hit }) := by
  simp only [fetch, found]

theorem fetch_of_get?_eq_none {m : Type → Type} [Monad m] [LawfulMonad m]
    {compile : String → List σ → m (Except ε β)} {cache : Cache β} {identity : String}
    {sources : Unit → m (Except ε (List σ))} (absent : cache.get? identity = none) :
    cache.fetch compile identity sources = (do
      match ← make compile identity sources with
      | .ok set =>
        pure (.ok set, ⟨cache.entries ++ [(identity, set)], cache.use.miss.compilation⟩)
      | .error e => pure (.error e, { cache with use := cache.use.miss.compilation.failure })) := by
  have none : cache.entries.lookup identity = none := absent
  have counted : (modify CacheUse.compilation : StateT CacheUse m PUnit).run cache.use.miss =
      pure (⟨⟩, cache.use.miss.compilation) := rfl
  simp only [fetch, absent, getOrInsert, none, StateT.run_bind, counted, StateT.run_lift,
    pure_bind, bind_assoc]
  congr 1
  funext result
  cases result with
  | ok set => simp
  | error e => simp

section Call

variable (compile : String → List σ → StateM ω (Except ε β)) (cache : Cache β)
  (request : Request ω ε σ) (world : ω)

theorem fetch_cases :
    let next := (cache.fetch compile request.identity request.sources).run world
    let made := (make compile request.identity request.sources).run world
    (∃ set, cache.get? request.identity = some set ∧
      next = ((.ok set, { cache with use := cache.use.hit }), world)) ∨
    (cache.get? request.identity = none ∧ ∃ set, made.1 = .ok set ∧
      next = ((.ok set, ⟨cache.entries ++ [(request.identity, set)], cache.use.miss.compilation⟩),
        made.2)) ∨
    (cache.get? request.identity = none ∧ ∃ e, made.1 = .error e ∧
      next = ((.error e, { cache with use := cache.use.miss.compilation.failure }), made.2)) := by
  intro next made
  cases found : cache.get? request.identity with
  | some set => exact .inl ⟨set, rfl, by simp only [next, fetch_of_get?_eq_some found]; rfl⟩
  | none =>
    right
    rcases ran : made with ⟨result, after⟩
    have opened : next = StateT.run (do
        match ← make compile request.identity request.sources with
        | .ok set => pure (.ok set,
            ⟨cache.entries ++ [(request.identity, set)], cache.use.miss.compilation⟩)
        | .error e => pure (.error e,
            { cache with use := cache.use.miss.compilation.failure })) world := by
      simp only [next, fetch_of_get?_eq_none found]
    rw [StateT.run_bind, show (make compile request.identity request.sources).run world = _ from ran]
      at opened
    cases result with
    | ok set => exact .inl ⟨rfl, set, rfl, opened⟩
    | error e => exact .inr ⟨rfl, e, rfl, opened⟩

end Call

theorem get?_concat (entries : List (String × β)) (use use' : CacheUse) (name : String) (set : β)
    (identity : String) :
    (⟨entries ++ [(name, set)], use⟩ : Cache β).get? identity =
      ((⟨entries, use'⟩ : Cache β).get? identity).or (if name = identity then some set else none) := by
  simp only [get?, List.lookup_append, List.lookup_cons, List.lookup_nil]
  congr 1
  by_cases same : name = identity
  · simp [same]
  · rw [beq_false_of_ne (Ne.symm same), if_neg same]

structure Accounts (answers : List (Answer ε β)) (cache : Cache β) : Prop where
  hits_eq : cache.use.hits = answers.countP (·.isHit)
  calls_eq : cache.use.hits + cache.use.misses = answers.length
  compilations_eq : cache.use.compilations = cache.use.misses
  failures_eq : cache.use.failures + cache.size = cache.use.misses
  get?_eq : ∀ identity, cache.get? identity = firstMade answers identity
  contains_iff : ∀ identity, cache.contains identity = true ↔
    ∃ answer ∈ answers, answer.identity = identity ∧ ∃ set, answer.result = .ok set
  first_of_ok : ∀ answer ∈ answers, ∀ set, answer.result = .ok set →
    firstMade answers answer.identity = some set

theorem accounts_nil : Accounts ([] : List (Answer ε β)) {} where
  hits_eq := rfl
  calls_eq := rfl
  compilations_eq := rfl
  failures_eq := rfl
  get?_eq _ := rfl
  contains_iff _ := by simp [contains, get?]
  first_of_ok := by simp

section Step

variable {answers : List (Answer ε β)} {cache : Cache β} {identity : String} {set : β} {e : ε}

theorem Accounts.first_append (h : Accounts answers cache) {more : List (Answer ε β)}
    {answer : Answer ε β} (member : answer ∈ answers) (ok : answer.result = .ok set) :
    firstMade (answers ++ more) answer.identity = some set := by
  rw [firstMade_append, h.first_of_ok answer member set ok, Option.some_or]

theorem Accounts.hit (h : Accounts answers cache) (found : cache.get? identity = some set) :
    Accounts (answers ++ [⟨identity, true, .ok set⟩]) { cache with use := cache.use.hit } where
  hits_eq := by simp [CacheUse.hit, h.hits_eq]
  calls_eq := by
    have := h.calls_eq
    simp only [CacheUse.hit, List.length_append, List.length_singleton]
    omega
  compilations_eq := h.compilations_eq
  failures_eq := h.failures_eq
  get?_eq name := by
    rw [firstMade_append, firstMade_singleton, Answer.made?_of_isHit rfl, Option.or_none]
    exact h.get?_eq name
  contains_iff name := by
    refine (h.contains_iff name).trans ⟨?_, ?_⟩
    · rintro ⟨answer, member, made⟩
      exact ⟨answer, List.mem_append_left _ member, made⟩
    · rintro ⟨answer, member, rfl, made⟩
      rcases List.mem_append.1 member with old | new
      · exact ⟨answer, old, rfl, made⟩
      · obtain rfl := List.mem_singleton.1 new
        exact (h.contains_iff _).1 (by simp [contains, found])
  first_of_ok answer member given ok := by
    rcases List.mem_append.1 member with old | new
    · exact h.first_append old ok
    · obtain rfl := List.mem_singleton.1 new
      obtain rfl : set = given := by simpa using ok
      rw [firstMade_append, ← h.get?_eq, found, Option.some_or]

theorem Accounts.make (h : Accounts answers cache) (absent : cache.get? identity = none) :
    Accounts (answers ++ [⟨identity, false, .ok set⟩])
      ⟨cache.entries ++ [(identity, set)], cache.use.miss.compilation⟩ where
  hits_eq := by simp [CacheUse.miss, CacheUse.compilation, h.hits_eq]
  calls_eq := by
    have := h.calls_eq
    simp only [CacheUse.miss, CacheUse.compilation, List.length_append, List.length_singleton]
    omega
  compilations_eq := by simp [CacheUse.miss, CacheUse.compilation, h.compilations_eq]
  failures_eq := by
    have := h.failures_eq
    simp only [CacheUse.miss, CacheUse.compilation, size, List.length_append,
      List.length_singleton] at this ⊢
    omega
  get?_eq name := by
    rw [get?_concat _ _ cache.use, firstMade_append, firstMade_singleton]
    exact congrArg₂ _ (h.get?_eq name) (by simp [Answer.made?, Except.toOption])
  contains_iff name := by
    have before := h.contains_iff name
    rw [contains, get?_concat _ _ cache.use, Option.isSome_or, Bool.or_eq_true]
    constructor
    · rintro (old | new)
      · obtain ⟨answer, member, made⟩ := before.1 old
        exact ⟨answer, List.mem_append_left _ member, made⟩
      · obtain rfl : identity = name := by
          by_contra other
          simp [other] at new
        exact ⟨_, List.mem_append_right _ (List.mem_singleton_self _), rfl, set, rfl⟩
    · rintro ⟨answer, member, rfl, made⟩
      rcases List.mem_append.1 member with old | new
      · exact .inl (before.2 ⟨answer, old, rfl, made⟩)
      · obtain rfl := List.mem_singleton.1 new
        exact .inr (by simp)
  first_of_ok answer member given ok := by
    rcases List.mem_append.1 member with old | new
    · exact h.first_append old ok
    · obtain rfl := List.mem_singleton.1 new
      obtain rfl : set = given := by simpa using ok
      rw [firstMade_append, ← h.get?_eq, absent, Option.none_or, firstMade_singleton]
      simp [Answer.made?, Except.toOption]

theorem Accounts.fail (h : Accounts answers cache) :
    Accounts (answers ++ [⟨identity, false, .error e⟩])
      { cache with use := cache.use.miss.compilation.failure } where
  hits_eq := by simp [CacheUse.miss, CacheUse.compilation, CacheUse.failure, h.hits_eq]
  calls_eq := by
    have := h.calls_eq
    simp only [CacheUse.miss, CacheUse.compilation, CacheUse.failure, List.length_append,
      List.length_singleton]
    omega
  compilations_eq := by
    simp [CacheUse.miss, CacheUse.compilation, CacheUse.failure, h.compilations_eq]
  failures_eq := by
    have := h.failures_eq
    simp only [CacheUse.miss, CacheUse.compilation, CacheUse.failure, size] at this ⊢
    omega
  get?_eq name := by
    rw [firstMade_append, firstMade_singleton, Answer.made?_of_error rfl, Option.or_none]
    exact h.get?_eq name
  contains_iff name := by
    refine (h.contains_iff name).trans ⟨?_, ?_⟩
    · rintro ⟨answer, member, made⟩
      exact ⟨answer, List.mem_append_left _ member, made⟩
    · rintro ⟨answer, member, rfl, given, ok⟩
      rcases List.mem_append.1 member with old | new
      · exact ⟨answer, old, rfl, given, ok⟩
      · obtain rfl := List.mem_singleton.1 new
        cases ok
  first_of_ok answer member given ok := by
    rcases List.mem_append.1 member with old | new
    · exact h.first_append old ok
    · obtain rfl := List.mem_singleton.1 new
      cases ok

end Step

section Run

variable (compile : String → List σ → StateM ω (Except ε β))

theorem run_serve_nil (cache : Cache β) (world : ω) :
    (serve compile cache []).run world = (([], cache), world) := rfl

theorem run_serve_cons (cache : Cache β) (request : Request ω ε σ)
    (requests : List (Request ω ε σ)) (world : ω) :
    let next := (cache.fetch compile request.identity request.sources).run world
    let rest := (serve compile next.1.2 requests).run next.2
    (serve compile cache (request :: requests)).run world =
      ((⟨request.identity, cache.contains request.identity, next.1.1⟩ :: rest.1.1, rest.1.2),
        rest.2) := rfl

theorem Accounts.fetch {answers : List (Answer ε β)} {cache : Cache β} (h : Accounts answers cache)
    (request : Request ω ε σ) (world : ω) :
    let next := (cache.fetch compile request.identity request.sources).run world
    Accounts (answers ++ [⟨request.identity, cache.contains request.identity, next.1.1⟩])
      next.1.2 := by
  intro next
  rcases fetch_cases compile cache request world with
    ⟨set, found, eq⟩ | ⟨absent, set, -, eq⟩ | ⟨absent, e, -, eq⟩
  · simpa [next, eq, contains, found] using h.hit found
  · simpa [next, eq, contains, absent] using h.make absent
  · simpa [next, eq, contains, absent] using h.fail

theorem Accounts.serve {answers : List (Answer ε β)} {cache : Cache β} (h : Accounts answers cache)
    (requests : List (Request ω ε σ)) (world : ω) :
    let run := (serve compile cache requests).run world
    Accounts (answers ++ run.1.1) run.1.2 := by
  induction requests generalizing answers cache world with
  | nil =>
    intro run
    simpa [run, run_serve_nil] using h
  | cons request requests ih =>
    intro run
    have rest := ih (h.fetch compile request world)
      ((cache.fetch compile request.identity request.sources).run world).2
    simpa [run, run_serve_cons] using rest

/-- After any calls the counters and the entries are those of the answers given. Of the next call, a
hit changes nothing and gives the set that was made first, and asks for no sources whatever they
would be; otherwise what it does is what making the set does. A call that fails leaves the sets of
all names as they are. -/
theorem serve_accounts (requests : List (Request ω ε σ)) (request : Request ω ε σ) (world : ω) :
    let run := (serve compile {} requests).run world
    let answers := run.1.1
    let cache := run.1.2
    let next := (cache.fetch compile request.identity request.sources).run run.2
    Accounts answers cache ∧
      (∀ set, firstMade answers request.identity = some set →
        next = ((.ok set, { cache with use := cache.use.hit }), run.2)) ∧
      (firstMade answers request.identity = none →
        (next.1.1, next.2) = (make compile request.identity request.sources).run run.2) ∧
      ∀ e, next.1.1 = .error e → ∀ identity, next.1.2.get? identity = cache.get? identity := by
  intro run answers cache next
  have accounts : Accounts answers cache := accounts_nil.serve compile requests world
  have cases := fetch_cases compile cache request run.2
  rw [accounts.get?_eq] at cases
  refine ⟨accounts, fun set made => ?_, fun made => ?_, fun e failed => ?_⟩
  · rcases cases with ⟨found, first, eq⟩ | ⟨absent, -⟩ | ⟨absent, -⟩
    · obtain rfl : found = set := Option.some.inj (first.symm.trans made)
      exact eq
    · simp [made] at absent
    · simp [made] at absent
  · rcases cases with ⟨found, first, -⟩ | ⟨-, set, ok, eq⟩ | ⟨-, e, error, eq⟩
    · simp [made] at first
    · exact Prod.ext (by simp only [next, eq, ok]) (by simp only [next, eq])
    · exact Prod.ext (by simp only [next, eq, error]) (by simp only [next, eq])
  · rcases cases with ⟨found, first, eq⟩ | ⟨-, set, -, eq⟩ | ⟨-, e', -, eq⟩
    · simp [next, eq] at failed
    · simp [next, eq] at failed
    · intro identity
      simp only [next, eq]
      rfl

theorem found_after_failure :
    let compile : String → List Nat → StateM (List String) (Except String Nat) := fun name list => do
      modify (name :: ·)
      pure (if name = "malformed" then .error "not a schema" else .ok list.length)
    let ask (name : String) (list : List Nat) : Request (List String) String Nat :=
      ⟨name, fun _ => do modify ("sources" :: ·); pure (.ok list)⟩
    let run := (serve compile {} [ask "malformed" [], ask "orders" [7]]).run []
    let next := (run.1.2.fetch compile "orders" (ask "orders" [7, 8]).sources).run run.2
    run.2 = ["orders", "sources", "malformed", "sources"] ∧
      run.1.2.use = { hits := 0, misses := 2, compilations := 2, failures := 1 } ∧
      run.1.2.contains "malformed" = false ∧
      next = ((.ok 1, { run.1.2 with use := run.1.2.use.hit }), run.2) := by
  intro compile ask run next
  have accounts := serve_accounts compile [ask "malformed" [], ask "orders" [7]]
    (ask "orders" [7, 8]) []
  exact ⟨rfl, rfl, rfl, accounts.2.1 1 rfl⟩

end Run

end XmlSchema.Validation.Cache
