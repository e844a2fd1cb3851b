/-
Stores that bring themselves up to date when they are called.

A lazy store keeps the state of its last call.  Each call first refreshes it, and what has
happened since is worked out then.  If refreshing in two steps is refreshing in one, nobody
can tell how often that was done: two states that are the same once they are refreshed are
answered the same, and a call that leaves nothing but the refreshed state behind might as
well not have been made.

The runs compared here are one with extra calls and the same run without them.  What ties
their states together is `Agree`, which speaks of all later times at once: it is kept by a
call both runs make, and by one that only the longer run makes.
-/
import Mathlib.Order.Defs.PartialOrder

/-- A store with states `S`, where calls `C` are answered with `A` at times `T`. -/
structure LazyStore (S C A T : Type) where
  refresh : S → T → S
  call : S → T → C → A × S

namespace LazyStore

variable {S C A T : Type}

/-! ### Runs -/

section Runs

variable (m : LazyStore S C A T)

/-- What the calls of a run are answered. -/
def answers (s : S) : List (T × C) → List A
  | [] => []
  | (t, c) :: xs => (m.call s t c).1 :: answers (m.call s t c).2 xs

/-- The state after a run. -/
def after (s : S) : List (T × C) → S
  | [] => s
  | (t, c) :: xs => after (m.call s t c).2 xs

/-- A call that belongs to a run, or one that was put in. -/
inductive Entry (C : Type)
  | own (c : C)
  | extra (c : C)
  deriving DecidableEq

/-- The run without the extra calls. -/
def owned : List (T × Entry C) → List (T × C)
  | [] => []
  | (t, .own c) :: xs => (t, c) :: owned xs
  | (_, .extra _) :: xs => owned xs

/-- What the calls of the run are answered when the extra ones are made as well. -/
def ownAnswers (s : S) : List (T × Entry C) → List A
  | [] => []
  | (t, .own c) :: xs => (m.call s t c).1 :: ownAnswers (m.call s t c).2 xs
  | (t, .extra c) :: xs => ownAnswers (m.call s t c).2 xs

/-- The state after all the calls. -/
def afterAll (s : S) : List (T × Entry C) → S
  | [] => s
  | (t, .own c) :: xs => afterAll (m.call s t c).2 xs
  | (t, .extra c) :: xs => afterAll (m.call s t c).2 xs

/-- Every extra call satisfies `P` in the state it is made in. -/
def Extras (P : S → T → C → Prop) (s : S) : List (T × Entry C) → Prop
  | [] => True
  | (t, .own c) :: xs => Extras P (m.call s t c).2 xs
  | (t, .extra c) :: xs => P s t c ∧ Extras P (m.call s t c).2 xs

end Runs

/-! ### Laws -/

variable [Preorder T] {m : LazyStore S C A T} {Valid : S → T → Prop} {Call : C → Prop}
  {P : S → T → C → Prop} {s s' : S} {t u : T} {c : C}

/-- What makes a store a lazy one.  `Valid s t`: the state `s` is as a call at `t` may have
left it. -/
structure Lawful (m : LazyStore S C A T) (Valid : S → T → Prop) (Call : C → Prop) : Prop where
  valid_refresh : ∀ s t u, Valid s t → t ≤ u → Valid (m.refresh s u) u
  valid_call : ∀ s t u c, Valid s t → t ≤ u → Call c → Valid (m.call s u c).2 u
  /-- Refreshing in two steps is refreshing in one. -/
  refresh_refresh : ∀ s t u v, Valid s t → t ≤ u → u ≤ v →
    m.refresh (m.refresh s u) v = m.refresh s v
  /-- A call refreshes the state before it looks at it. -/
  call_refresh : ∀ s t c, m.call (m.refresh s t) t c = m.call s t c

/-- From `t` on the two states are the same once they are refreshed. -/
def Agree (m : LazyStore S C A T) (t : T) (s s' : S) : Prop :=
  ∀ u, t ≤ u → m.refresh s u = m.refresh s' u

theorem Agree.refl (m : LazyStore S C A T) (t : T) (s : S) : m.Agree t s s :=
  fun _ _ => rfl

/-- Calls do not tell agreeing states apart. -/
theorem Agree.call (h : m.Agree t s s') (hm : m.Lawful Valid Call) (htu : t ≤ u) :
    m.call s u c = m.call s' u c := by
  rw [← hm.call_refresh s u c, h u htu, hm.call_refresh]

/-- A refreshed state agrees with what the state agreed with. -/
theorem Agree.refresh (h : m.Agree t s s') (hm : m.Lawful Valid Call) (hs : Valid s t)
    (htu : t ≤ u) : m.Agree u (m.refresh s u) s' := by
  intro v huv
  rw [hm.refresh_refresh s t u v hs htu huv]
  exact h v (le_trans htu huv)

/--
**Calls that leave only the refreshed state behind go unnoticed.**  Wherever they are put in,
the other calls are answered as without them, and at every later time the state is the same.
-/
theorem Lawful.unnoticed (hm : m.Lawful Valid Call)
    (hP : ∀ s t c, P s t c → (m.call s t c).2 = m.refresh s t) {xs : List (T × Entry C)}
    (hs : Valid s t) (hagree : m.Agree t s s')
    (htimes : (t :: xs.map Prod.fst).Pairwise (· ≤ ·)) (hcalls : ∀ x ∈ owned xs, Call x.2)
    (hextras : m.Extras P s xs) :
    m.ownAnswers s xs = m.answers s' (owned xs) ∧
      ∀ u, t ≤ u → (∀ x ∈ xs, x.1 ≤ u) →
        m.refresh (m.afterAll s xs) u = m.refresh (m.after s' (owned xs)) u := by
  -- `s'` is the state of the run without the extra calls
  induction xs generalizing s s' t with
  | nil => exact ⟨rfl, fun u htu _ => hagree u htu⟩
  | cons x xs ih =>
      obtain ⟨v, e⟩ := x
      obtain ⟨hfirst, hrest⟩ := List.pairwise_cons.mp htimes
      have htv : t ≤ v := hfirst v List.mem_cons_self
      cases e with
      | own c =>
          have hcall : m.call s v c = m.call s' v c := hagree.call hm htv
          have hvalid := hm.valid_call s t v c hs htv (hcalls (v, c) List.mem_cons_self)
          have hagree' : m.Agree v (m.call s v c).2 (m.call s' v c).2 := by
            rw [hcall]
            exact Agree.refl m v _
          obtain ⟨hanswers, hlater⟩ := ih hvalid hagree' hrest
            (fun y hy => hcalls y (List.mem_cons_of_mem _ hy)) hextras
          constructor
          · show _ :: _ = _ :: _
            rw [hanswers, hcall]
          · intro u _ hall
            exact hlater u (hall _ List.mem_cons_self)
              fun y hy => hall y (List.mem_cons_of_mem _ hy)
      | extra c =>
          obtain ⟨hPc, hextras⟩ := hextras
          have hstate := hP s v c hPc
          have hvalid : Valid (m.call s v c).2 v := by
            rw [hstate]
            exact hm.valid_refresh s t v hs htv
          have hagree' : m.Agree v (m.call s v c).2 s' := by
            rw [hstate]
            exact hagree.refresh hm hs htv
          obtain ⟨hanswers, hlater⟩ := ih hvalid hagree' hrest hcalls hextras
          refine ⟨hanswers, ?_⟩
          intro u _ hall
          exact hlater u (hall _ List.mem_cons_self)
            fun y hy => hall y (List.mem_cons_of_mem _ hy)

end LazyStore
