import Graft.Proofs.Simulation
import Mathlib.Order.Bounds.Defs

/-!
# What a search visits

A search visits each position once, with the depth of the first way to it. It succeeds exactly if
the machine can go on from everything that it comes to and comes to each position with one depth;
then what it answers is the deepest stack on any way. Positions are numbers below a bound that
neither the starts nor the steps of the machine leave.
-/

namespace Graft.Simulation

variable {machine : Machine} {clash : Nat → Nat → Nat → Fault} {starts pending : List (Nat × Nat)}
  {depths : Array (Option Nat)} {deepest n r : Nat}

/-- The machine comes to a position with a depth, from one of the starts. -/
inductive Comes (machine : Machine) (starts : List (Nat × Nat)) : Nat → Nat → Prop where
  | start {p depth : Nat} (h : (p, depth) ∈ starts) : Comes machine starts p depth
  | step {p depth after q next : Nat} {following : List (Nat × Nat)}
    (before : Comes machine starts p depth) (ran : machine p depth = .ok (after, following))
    (h : (q, next) ∈ following) : Comes machine starts q next

/-- Neither the starts nor the steps lead out of the first `n` positions. -/
structure Bounded (machine : Machine) (starts : List (Nat × Nat)) (n : Nat) : Prop where
  starts : ∀ p depth, (p, depth) ∈ starts → p < n
  steps : ∀ p depth after following, p < n → machine p depth = .ok (after, following) →
    ∀ q next, (q, next) ∈ following → q < n

theorem Comes.lt {p depth : Nat} (h : Comes machine starts p depth)
    (bounded : Bounded machine starts n) : p < n := by
  induction h with
  | start h => exact bounded.starts _ _ h
  | step before ran h ih => exact bounded.steps _ _ _ _ ih ran _ _ h

/-- From everything that the machine comes to it can go on, and the depth there is unique. -/
structure Steady (machine : Machine) (starts : List (Nat × Nat)) : Prop where
  runs : ∀ p depth, Comes machine starts p depth → ∃ out, machine p depth = .ok out
  agree : ∀ p depth depth', Comes machine starts p depth → Comes machine starts p depth' →
    depth = depth'

/-- A step from the first pending place leaves places pending that the machine comes to. -/
theorem comes_following {p depth after : Nat} {following : List (Nat × Nat)}
    (todo : ∀ q d, (q, d) ∈ (p, depth) :: pending → Comes machine starts q d)
    (ran : machine p depth = .ok (after, following)) :
    ∀ q d, (q, d) ∈ following.reverse ++ pending → Comes machine starts q d := by
  intro q d hq
  rcases List.mem_append.mp hq with hq | hq
  · exact (todo p depth List.mem_cons_self).step ran (List.mem_reverse.mp hq)
  · exact todo q d (List.mem_cons_of_mem _ hq)

/-! ## A steady machine is searched to the end -/

/-- What is pending and what was visited are places that the machine comes to. No such place can
fail or clash, so the search goes on. -/
theorem exists_visit (steady : Steady machine starts)
    (todo : ∀ p depth, (p, depth) ∈ pending → Comes machine starts p depth)
    (done : ∀ p depth, depths[p]? = some (some depth) → Comes machine starts p depth) :
    ∃ r, visit machine clash depths deepest pending = .ok r := by
  fun_induction visit machine clash depths deepest pending with
  | case1 depths deepest => exact ⟨deepest, rfl⟩
  | case2 depths deepest p pending hp depth known ih =>
    exact ih (fun q d hq => todo q d (List.mem_cons_of_mem _ hq)) done
  | case3 depths deepest p depth pending hp expected known clashes =>
    have visited : Comes machine starts p expected :=
      done p expected (by rw [Array.getElem?_eq_getElem hp, known])
    exact absurd (steady.agree p _ _ visited (todo p depth List.mem_cons_self)) clashes
  | case4 depths deepest p depth pending hp fresh fault failed =>
    obtain ⟨out, ran⟩ := steady.runs p depth (todo p depth List.mem_cons_self)
    rw [failed] at ran
    cases ran
  | case5 depths deepest p depth pending hp fresh after following ran ih =>
    apply ih (comes_following todo ran)
    intro q d hq
    rw [Array.getElem?_set] at hq
    split at hq
    · cases hq
      subst q
      exact todo p depth List.mem_cons_self
    · exact done q d hq
  | case6 depths deepest p depth pending hp ih =>
    exact ih (fun q d hq => todo q d (List.mem_cons_of_mem _ hq)) done

/-! ## What a search that succeeds has visited -/

/-- Everything that was pending has its depth in `found`, and so has what follows it. What was
visited by now keeps its depth, and what is new is no deeper than the answer. -/
structure Settled (machine : Machine) (depths : Array (Option Nat)) (pending : List (Nat × Nat))
    (r : Nat) (found : Nat → Option Nat) : Prop where
  kept : ∀ p depth, depths[p]? = some (some depth) → found p = some depth
  pending : ∀ p depth, (p, depth) ∈ pending → p < depths.size → found p = some depth
  closed : ∀ p depth, found p = some depth → depths[p]? = some (some depth) ∨
    ∃ after following, machine p depth = .ok (after, following) ∧ depth ≤ r ∧ after ≤ r ∧
      ∀ q next, (q, next) ∈ following → q < depths.size → found q = some next

theorem le_of_visit (h : visit machine clash depths deepest pending = .ok r) : deepest ≤ r := by
  fun_induction visit machine clash depths deepest pending with
  | case1 => exact le_of_eq (Except.ok.inj h)
  | case2 depths deepest p pending hp depth known ih => exact ih h
  | case3 => cases h
  | case4 => cases h
  | case5 depths deepest p depth pending hp fresh after following ran ih =>
    exact (Nat.le_max_left _ _).trans (ih h)
  | case6 depths deepest p depth pending hp ih => exact ih h

/-- One more place is pending, whose depth is the one that was found. -/
theorem Settled.cons {found : Nat → Option Nat} {p depth : Nat}
    (settled : Settled machine depths pending r found)
    (here : p < depths.size → found p = some depth) :
    Settled machine depths ((p, depth) :: pending) r found where
  kept := settled.kept
  pending q d hq inside := by
    rcases List.mem_cons.mp hq with same | hq
    · cases same
      exact here inside
    · exact settled.pending q d hq inside
  closed := settled.closed

/-- Before a position was visited, and what follows it became pending. -/
theorem Settled.unvisited {found : Nat → Option Nat} {p depth after : Nat}
    {following : List (Nat × Nat)} (hp : p < depths.size) (fresh : depths[p] = none)
    (ran : machine p depth = .ok (after, following)) (deep : max depth after ≤ r)
    (settled : Settled machine (depths.set p (some depth)) (following.reverse ++ pending) r found) :
    Settled machine depths ((p, depth) :: pending) r found := by
  have size : (depths.set p (some depth)).size = depths.size := Array.size_set hp
  have here : found p = some depth := settled.kept p depth (by simp [hp])
  have next : ∀ q d, (q, d) ∈ following.reverse ++ pending → q < depths.size → found q = some d :=
    fun q d hq inside => settled.pending q d hq (size ▸ inside)
  refine .cons ⟨?_, ?_, ?_⟩ fun _ => here
  · intro q d hq
    have other : p ≠ q := by
      intro same
      subst same
      rw [Array.getElem?_eq_getElem hp, fresh] at hq
      cases hq
    exact settled.kept q d (by rw [Array.getElem?_set_ne hp other, hq])
  · exact fun q d hq => next q d (List.mem_append_right _ hq)
  · intro q d hq
    by_cases same : q = p
    · -- the position that is visited now
      subst same
      obtain rfl : depth = d := Option.some.inj (here.symm.trans hq)
      exact .inr ⟨after, following, ran, by omega, by omega, fun x y hx =>
        next x y (List.mem_append_left _ (List.mem_reverse.mpr hx))⟩
    · rw [← size]
      refine (settled.closed q d hq).imp_left fun old => ?_
      rwa [Array.getElem?_set_ne hp (Ne.symm same)] at old

/-- Back along the search, from its end, where nothing is pending. -/
theorem exists_settled (h : visit machine clash depths deepest pending = .ok r) :
    ∃ found, Settled machine depths pending r found := by
  fun_induction visit machine clash depths deepest pending with
  | case1 depths deepest =>
    refine ⟨fun p => depths[p]?.join, ?_, ?_, ?_⟩
    · intro p depth hp
      simp [hp]
    · intro p depth hp
      cases hp
    · intro p depth hp
      exact .inl (Option.join_eq_some_iff.mp hp)
  | case2 depths deepest p pending hp depth known ih =>
    obtain ⟨found, settled⟩ := ih h
    refine ⟨found, settled.cons fun _ => settled.kept p depth ?_⟩
    rw [Array.getElem?_eq_getElem hp, known]
  | case3 => cases h
  | case4 => cases h
  | case5 depths deepest p depth pending hp fresh after following ran ih =>
    obtain ⟨found, settled⟩ := ih h
    have deep : max depth after ≤ r := (Nat.le_max_right _ _).trans (le_of_visit h)
    exact ⟨found, settled.unvisited hp fresh ran deep⟩
  | case6 depths deepest p depth pending hp ih =>
    obtain ⟨found, settled⟩ := ih h
    exact ⟨found, settled.cons fun inside => absurd inside hp⟩

/-- The answer was the deepest so far, or is a depth before or after some instruction. -/
theorem eq_or_exists_of_visit
    (todo : ∀ p depth, (p, depth) ∈ pending → Comes machine starts p depth)
    (h : visit machine clash depths deepest pending = .ok r) :
    r = deepest ∨ ∃ p depth after following, Comes machine starts p depth ∧
      machine p depth = .ok (after, following) ∧ r = max depth after := by
  fun_induction visit machine clash depths deepest pending with
  | case1 => exact .inl (Except.ok.inj h).symm
  | case2 depths deepest p pending hp depth known ih =>
    exact ih (fun q d hq => todo q d (List.mem_cons_of_mem _ hq)) h
  | case3 => cases h
  | case4 => cases h
  | case5 depths deepest p depth pending hp fresh after following ran ih =>
    have here : Comes machine starts p depth := todo p depth List.mem_cons_self
    rcases ih (comes_following todo ran) h with same | found
    · by_cases deeper : deepest ≤ max depth after
      · exact .inr ⟨p, depth, after, following, here, ran, by omega⟩
      · exact .inl (by omega)
    · exact .inr found
  | case6 depths deepest p depth pending hp ih =>
    exact ih (fun q d hq => todo q d (List.mem_cons_of_mem _ hq)) h

/-! ## Searches from the beginning -/

/-- A search that starts with nothing visited has a depth for everything that the machine comes to,
the same on every way. -/
theorem settled_comes (bounded : Bounded machine starts n) {found : Nat → Option Nat}
    (settled : Settled machine (.replicate n none) starts r found) {p depth : Nat}
    (h : Comes machine starts p depth) : found p = some depth ∧
      ∃ after following, machine p depth = .ok (after, following) ∧ depth ≤ r ∧ after ≤ r ∧
        ∀ q next, (q, next) ∈ following → q < n → found q = some next := by
  have size : (Array.replicate n (none : Option Nat)).size = n := Array.size_replicate
  have unvisited : ∀ p depth : Nat,
      (Array.replicate n (none : Option Nat))[p]? ≠ some (some depth) := by
    intro p depth
    rw [Array.getElem?_replicate]
    split <;> simp
  have goes : ∀ p depth, found p = some depth →
      ∃ after following, machine p depth = .ok (after, following) ∧ depth ≤ r ∧ after ≤ r ∧
        ∀ q next, (q, next) ∈ following → q < n → found q = some next := by
    intro p depth hp
    have := (settled.closed p depth hp).resolve_left (unvisited p depth)
    rwa [size] at this
  have here : found p = some depth := by
    induction h with
    | start h => exact settled.pending _ _ h (size.symm ▸ bounded.starts _ _ h)
    | step before ran h ih =>
      obtain ⟨after, following, ran', -, -, next⟩ := goes _ _ ih
      rw [ran] at ran'
      cases ran'
      exact next _ _ h (bounded.steps _ _ _ _ (before.lt bounded) ran _ _ h)
  exact ⟨here, goes p depth here⟩

/-- A search succeeds exactly if the machine is steady. -/
theorem exists_visit_iff (bounded : Bounded machine starts n) :
    (∃ r, visit machine clash (.replicate n none) 0 starts = .ok r) ↔ Steady machine starts := by
  constructor
  · rintro ⟨r, h⟩
    obtain ⟨found, settled⟩ := exists_settled h
    constructor
    · intro p depth comes
      obtain ⟨-, after, following, ran, -⟩ := settled_comes bounded settled comes
      exact ⟨_, ran⟩
    · intro p depth depth' comes comes'
      have one := (settled_comes bounded settled comes).1
      have two := (settled_comes bounded settled comes').1
      exact Option.some.inj (one.symm.trans two)
  · intro steady
    apply exists_visit steady (fun _ _ => Comes.start)
    intro p depth hp
    rw [Array.getElem?_replicate] at hp
    split at hp <;> cases hp

/-- The depths before and after the instructions that the machine comes to. -/
def Depth (machine : Machine) (starts : List (Nat × Nat)) (x : Nat) : Prop :=
  ∃ p depth after following, Comes machine starts p depth ∧
    machine p depth = .ok (after, following) ∧ (x = depth ∨ x = after)

/-- A search from at least one start answers the greatest of these depths. -/
theorem isGreatest_of_visit (bounded : Bounded machine starts n) (filled : starts ≠ [])
    (h : visit machine clash (.replicate n none) 0 starts = .ok r) :
    IsGreatest {x | Depth machine starts x} r := by
  obtain ⟨found, settled⟩ := exists_settled h
  constructor
  · rcases eq_or_exists_of_visit (fun _ _ => Comes.start) h with zero | found
    · -- nothing is deeper than zero, so the first start has this depth
      obtain ⟨⟨p, depth⟩, rest, rfl⟩ := List.exists_cons_of_ne_nil filled
      have comes : Comes machine ((p, depth) :: rest) p depth := .start List.mem_cons_self
      obtain ⟨-, after, following, ran, le, -⟩ := settled_comes bounded settled comes
      exact ⟨p, depth, after, following, comes, ran, .inl (by omega)⟩
    · obtain ⟨p, depth, after, following, comes, ran, deepest⟩ := found
      refine ⟨p, depth, after, following, comes, ran, ?_⟩
      omega
  · rintro x ⟨p, depth, after, following, comes, ran, same⟩
    obtain ⟨-, after', following', ran', le, le', -⟩ := settled_comes bounded settled comes
    rw [ran] at ran'
    cases ran'
    omega

end Graft.Simulation
