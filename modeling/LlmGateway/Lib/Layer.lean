/-
A machine around another.

A layer lets a program run to its end, then performs one operation of its own, which the
world does not notice, and dresses what the program has returned.  `Layer` says so of two
machines over one world.  The two results go the two ways.  `Layer.lowers`: whatever the
outer machine comes to, the inner one comes to, in the same world, with the same tasks under
the layer and the same moves of each, less the layer's own.  `Layer.raises`: and the other
way round.  So what is proved of the runs of the inner machine is proved of the outer one.
-/
import LlmGateway.Lib.Machine

namespace Effects

variable {S : Sig} {M I W C V R R' T : Type}

/-- A program whose result is dressed. -/
def Prog.dressed (d : I → I) (p : Prog S I) : Prog S I := p.bind fun i => .ret (d i)

/-- A program as the layer runs it. -/
def Prog.layered (e : S.Op) (d : I → I) (p : Prog S I) : Prog S I :=
  p.bind fun i => .op e fun _ => .ret (d i)

/-- The outer machine runs the programs of the inner one, each under the layer. -/
structure Layer (m : Machine S M I W C V R T) (m' : Machine S M I W C V R' T) (inner : R' → R)
    (e : S.Op) (dress : R' → I → I) : Prop where
  start : ∀ r, m'.start r = (m.start (inner r)).layered e (dress r)
  poll : ∀ r i x, m'.poll (dress r i) x = (m.poll i x).map (.dressed (dress r))
  drop : ∀ r i, m'.drop (dress r i) = (m.drop i).map (.dressed (dress r))
  abort : ∀ r o, m'.abort o = (m.abort o).map (.dressed (dress r))
  respond : m'.respond = m.respond
  env : m'.env = m.env
  clock : m'.clock = m.clock
  own : m.abort e = none
  unnoticed : ∀ w c y w', m.respond w e c = some (y, w') → w' = w

/-- The program itself does this, not who polls or drops it. -/
def Move.IsAct : Move S M → Prop
  | .act _ _ => True
  | _ => False

/-- What a task has done and what is left of it, without the layer and with it. -/
inductive Layered (e : S.Op) (d : I → I) :
    List (Move S M) → List (Move S M) → Prog S I → Prog S I → Prop
  /-- The program has not returned. -/
  | running {ms : List (Move S M)} {p : Prog S I} (h : ∀ x ∈ ms, x.IsAct) :
      Layered e d ms ms p (p.layered e d)
  /-- It has, and the layer has performed its operation. -/
  | done {before after : List (Move S M)} {y : S.Ans e} {p : Prog S I}
      (h : ∀ x ∈ before, x.IsAct) :
      Layered e d (before ++ after) (before ++ .act e y :: after) p (p.dressed d)
  /-- It was dropped before. -/
  | gone {ms : List (Move S M)} {p : Prog S I} (h : .drop ∈ ms) :
      Layered e d ms ms p (p.dressed d)

theorem Prog.dressed_op {d : I → I} {o : S.Op} {k : S.Ans o → Prog S I} :
    (Prog.op o k).dressed d = .op o fun y => (k y).dressed d := rfl

theorem Prog.layered_op {e : S.Op} {d : I → I} {o : S.Op} {k : S.Ans o → Prog S I} :
    (Prog.op o k).layered e d = .op o fun y => (k y).layered e d := rfl

section Moves

variable {e : S.Op} {d : I → I} {ms ms' : List (Move S M)} {p p' : Prog S I}

/-- A program in the middle performs its operations under the layer. -/
theorem Layered.op {o : S.Op} {k : S.Ans o → Prog S I} (h : Layered e d ms ms' (.op o k) p') :
    ∃ k', p' = .op o k' ∧
      ∀ y, Layered e d (ms ++ [.act o y]) (ms' ++ [.act o y]) (k y) (k' y) := by
  cases h with
  | running h =>
      refine ⟨_, Prog.layered_op, fun y => .running ?_⟩
      intro x hx
      rcases List.mem_append.mp hx with hold | hnew
      · exact h x hold
      · rw [List.mem_singleton.mp hnew]
        exact trivial
  | done h =>
      refine ⟨_, Prog.dressed_op, fun y => ?_⟩
      rw [List.append_assoc, List.append_assoc]
      exact .done h
  | gone h => exact ⟨_, Prog.dressed_op, fun y => .gone (List.mem_append_left _ h)⟩

/-- A task that is dropped goes on with its drop glue. -/
theorem Layered.drop (h : Layered e d ms ms' p p') (q : Prog S I) :
    Layered e d (ms ++ [.drop]) (ms' ++ [.drop]) q (q.dressed d) := by
  cases h with
  | running h => exact .gone (by simp)
  | done h =>
      rw [List.append_assoc, List.append_assoc]
      exact .done h
  | gone h => exact .gone (by simp)

/-- The layer performs its operation. -/
theorem Layered.own (h : ∀ x ∈ ms, x.IsAct) (y : S.Ans e) (p : Prog S I) :
    Layered e d ms (ms ++ [.act e y]) p (p.dressed d) := by
  have hdone : Layered e d (ms ++ []) (ms ++ .act e y :: []) p (p.dressed d) := .done h
  rwa [List.append_nil] at hdone

/-- A program that has returned: the layer is still to come, or it is done with. -/
theorem Layered.returned {i : I} (h : Layered e d ms ms' (.ret i) p') :
    ((∀ x ∈ ms, x.IsAct) ∧ ms' = ms ∧ p' = .op e fun _ => .ret (d i)) ∨
    (p' = .ret (d i) ∧ ∀ (a : M) (q : Prog S I),
      Layered e d (ms ++ [.poll a]) (ms' ++ [.poll a]) q (q.dressed d)) := by
  cases h with
  | running h => exact Or.inl ⟨h, rfl, rfl⟩
  | done h =>
      refine Or.inr ⟨rfl, fun a q => ?_⟩
      rw [List.append_assoc, List.append_assoc]
      exact .done h
  | gone h => exact Or.inr ⟨rfl, fun a q => .gone (List.mem_append_left _ h)⟩

/-- A task has made the moves of the one beneath, and perhaps one of the layer's. -/
theorem Layered.moves (h : Layered e d ms ms' p p') :
    ms' = ms ∨ ∃ before after y, ms' = before ++ .act e y :: after ∧ ms = before ++ after := by
  cases h with
  | running h => exact Or.inl rfl
  | done h => exact Or.inr ⟨_, _, _, rfl, rfl⟩
  | gone h => exact Or.inl rfl

/-- What an idle task has been through: it is dressed, and the layer is done with, unless the
task was dropped. -/
theorem Layered.idle {s' : I} (h : Layered e d ms ms' p (.ret s')) :
    (∃ s, p = .ret s ∧ s' = d s) ∧
      (.drop ∈ ms' ∨ ∃ before after y, ms' = before ++ .act e y :: after ∧
        ms = before ++ after ∧ ∀ x ∈ before, x.IsAct) := by
  have hreturned : ∀ q : Prog S I, .ret s' = q.dressed d → ∃ s, q = .ret s ∧ s' = d s := by
    intro q hq
    cases q with
    | ret s => exact ⟨s, rfl, Prog.ret.inj hq⟩
    | op o k => cases hq
  generalize hp' : Prog.ret s' = p' at h
  cases h with
  | running h =>
      cases p with
      | ret s => cases hp'
      | op o k => cases hp'
  | done h => exact ⟨hreturned _ hp', Or.inr ⟨_, _, _, rfl, rfl, h⟩⟩
  | gone h => exact ⟨hreturned _ hp', Or.inl h⟩

end Moves

/-! ### Tasks -/

/-- A task, and what it is under the layer, which may have been looked at since. -/
structure Beneath (e : S.Op) (d : I → I) (ms ms' : List (Move S M)) (t t' : Task S I) : Prop where
  prog : Layered e d ms ms' t.prog t'.prog
  awaited : ∀ q', t'.awaited = some q' → ∃ q, t.awaited = some q ∧ q' = q.dressed d

namespace Layer

variable {m : Machine S M I W C V R T} {m' : Machine S M I W C V R' T} {inner : R' → R}
  {e : S.Op} {dress : R' → I → I} {r : R'} {ms ms' : List (Move S M)} {t t' u u' : Task S I}
  {x : Move S M}

theorem beneath_drop (hb : Beneath e (dress r) ms ms' t t') (q : Prog S I) :
    Beneath e (dress r) (ms ++ [.drop]) (ms' ++ [.drop]) (.ofProg q)
      (.ofProg (q.dressed (dress r))) :=
  ⟨hb.prog.drop q, fun _ hq => by cases hq⟩

/-- **A move of the outer task is the layer's own, or one of the task beneath.** -/
theorem lower (h : Layer m m' inner e dress) (hb : Beneath e (dress r) ms ms' t t')
    (hstep : m'.toKernel.Step t' x u') :
    (∃ y, x = .act e y ∧ Beneath e (dress r) ms (ms' ++ [x]) t u') ∨
    ∃ u, m.toKernel.Step t x u ∧ Beneath e (dress r) (ms ++ [x]) (ms' ++ [x]) u u' := by
  obtain ⟨p, a⟩ := t
  obtain ⟨p', a'⟩ := t'
  have hprog : Layered e (dress r) ms ms' p p' := hb.prog
  cases p with
  | ret i =>
      rcases hprog.returned with ⟨hms, hsame, rfl⟩ | ⟨rfl, hpoll⟩
      · cases hstep with
        | act y =>
            refine Or.inl ⟨y, rfl, ?_, ?_⟩
            · rw [hsame]
              exact .own hms y _
            · intro q' hq'
              rw [h.abort r e, h.own] at hq'
              cases hq'
        | abort hq =>
            rw [h.abort r e, h.own] at hq
            cases hq
        | late =>
            obtain ⟨q, rfl, rfl⟩ := hb.awaited _ rfl
            exact Or.inr ⟨_, .late, beneath_drop hb q⟩
      · cases hstep with
        | poll hq =>
            rw [h.poll r i] at hq
            obtain ⟨q, hm, rfl⟩ := Option.map_eq_some_iff.mp hq
            exact Or.inr ⟨_, .poll hm, hpoll _ q, fun _ hq => by cases hq⟩
        | drop hq =>
            rw [h.drop r i] at hq
            obtain ⟨q, hm, rfl⟩ := Option.map_eq_some_iff.mp hq
            exact Or.inr ⟨_, .drop hm, beneath_drop hb q⟩
        | late =>
            obtain ⟨q, rfl, rfl⟩ := hb.awaited _ rfl
            exact Or.inr ⟨_, .late, beneath_drop hb q⟩
  | op o k =>
      obtain ⟨k', rfl, hact⟩ := hprog.op
      cases hstep with
      | act y =>
          refine Or.inr ⟨_, .act y, hact y, ?_⟩
          intro q' hq'
          rw [h.abort r o] at hq'
          obtain ⟨q, hq, rfl⟩ := Option.map_eq_some_iff.mp hq'
          exact ⟨q, hq, rfl⟩
      | abort hq =>
          rw [h.abort r o] at hq
          obtain ⟨q, hm, rfl⟩ := Option.map_eq_some_iff.mp hq
          exact Or.inr ⟨_, .abort hm, beneath_drop hb q⟩
      | late =>
          obtain ⟨q, rfl, rfl⟩ := hb.awaited _ rfl
          exact Or.inr ⟨_, .late, beneath_drop hb q⟩

/-- What the task beneath could be dropped with, the outer task can. -/
def Level (d : I → I) (t t' : Task S I) : Prop :=
  ∀ q, t.awaited = some q → t'.awaited = some (q.dressed d)

/-- A task that the layer is done with is polled and dropped like the one beneath. -/
theorem raise_idle (h : Layer m m' inner e dress) {i : I} {a a' : Option (Prog S I)}
    (hb : Beneath e (dress r) ms ms' ⟨.ret i, a⟩ ⟨.ret (dress r i), a'⟩)
    (hstep : m.toKernel.Step ⟨.ret i, none⟩ x u) :
    ∃ u', m'.toKernel.Step ⟨.ret (dress r i), a'⟩ x u' ∧
      Beneath e (dress r) (ms ++ [x]) (ms' ++ [x]) u u' ∧ Level (dress r) u u' := by
  cases hstep with
  | @poll _ _ b q hq =>
      rcases hb.prog.returned with ⟨-, -, hpending⟩ | ⟨-, hpoll⟩
      · cases hpending
      · have hq' : m'.poll (dress r i) b = some (q.dressed (dress r)) := by
          rw [h.poll r i, hq, Option.map_some]
        exact ⟨_, .poll hq', ⟨hpoll b q, fun _ hnone => nomatch hnone⟩,
          fun _ hnone => nomatch hnone⟩
  | @drop _ _ q hq =>
      have hq' : m'.drop (dress r i) = some (q.dressed (dress r)) := by
        rw [h.drop r i, hq, Option.map_some]
      exact ⟨_, .drop hq', beneath_drop hb q, fun _ hnone => nomatch hnone⟩

/-- The task beneath has returned, and does not perform an operation next. -/
theorem raise_returned (h : Layer m m' inner e dress) {i : I} {a : Option (Prog S I)}
    (hb : Beneath e (dress r) ms ms' ⟨.ret i, a⟩ t')
    (hstep : m.toKernel.Step ⟨.ret i, none⟩ x u) :
    (∃ u', m'.toKernel.Step t' x u' ∧
      Beneath e (dress r) (ms ++ [x]) (ms' ++ [x]) u u' ∧ Level (dress r) u u') ∨
    (¬ x.IsAct ∧ ∀ y, ∃ v' u', m'.toKernel.Step t' (.act e y) v' ∧
      Beneath e (dress r) ms (ms' ++ [.act e y]) ⟨.ret i, a⟩ v' ∧ m'.toKernel.Step v' x u' ∧
      Beneath e (dress r) (ms ++ [x]) (ms' ++ [.act e y] ++ [x]) u u' ∧ Level (dress r) u u') := by
  obtain ⟨p', a'⟩ := t'
  have hprog : Layered e (dress r) ms ms' (.ret i) p' := hb.prog
  rcases hprog.returned with ⟨hms, rfl, rfl⟩ | ⟨rfl, -⟩
  · refine Or.inr ⟨?_, fun y => ?_⟩
    · cases hstep with
      | poll hq => exact id
      | drop hq => exact id
    · have hown : Beneath e (dress r) ms' (ms' ++ [.act e y]) ⟨.ret i, a⟩
          ⟨.ret (dress r i), m'.abort e⟩ := by
        refine ⟨.own hms y _, ?_⟩
        intro q' hq'
        rw [h.abort r e, h.own] at hq'
        cases hq'
      obtain ⟨u', hu', hbeneath, hlevel⟩ := h.raise_idle hown hstep
      exact ⟨_, u', .act y, hown, hu', hbeneath, hlevel⟩
  · exact Or.inl (h.raise_idle hb hstep)

/-- **A move of the task beneath is one of the outer task, perhaps after the layer's own.** -/
theorem raise (h : Layer m m' inner e dress) (hb : Beneath e (dress r) ms ms' t t')
    (hl : Level (dress r) t t') (hstep : m.toKernel.Step t x u) :
    (∃ u', m'.toKernel.Step t' x u' ∧
      Beneath e (dress r) (ms ++ [x]) (ms' ++ [x]) u u' ∧ Level (dress r) u u') ∨
    (¬ x.IsAct ∧ ∀ y, ∃ v' u', m'.toKernel.Step t' (.act e y) v' ∧
      Beneath e (dress r) ms (ms' ++ [.act e y]) t v' ∧ m'.toKernel.Step v' x u' ∧
      Beneath e (dress r) (ms ++ [x]) (ms' ++ [.act e y] ++ [x]) u u' ∧ Level (dress r) u u') := by
  cases hstep with
  | @act o k a y =>
      obtain ⟨p', a'⟩ := t'
      obtain ⟨k', hk', hact⟩ := hb.prog.op
      obtain rfl : p' = .op o k' := hk'
      have habort := h.abort r o
      refine Or.inl ⟨_, .act y, ⟨hact y, ?_⟩, ?_⟩
      · intro q' hq'
        rw [habort] at hq'
        obtain ⟨q, hq, rfl⟩ := Option.map_eq_some_iff.mp hq'
        exact ⟨q, hq, rfl⟩
      · intro q hq
        show m'.abort o = _
        rw [habort, show m.abort o = some q from hq, Option.map_some]
  | poll hq => exact h.raise_returned hb (.poll hq)
  | drop hq => exact h.raise_returned hb (.drop hq)
  | @abort o k a q hq =>
      obtain ⟨p', a'⟩ := t'
      obtain ⟨k', hk', -⟩ := hb.prog.op
      obtain rfl : p' = .op o k' := hk'
      refine Or.inl ⟨_, .abort (q := q.dressed (dress r)) ?_, beneath_drop hb q, ?_⟩
      · rw [h.abort r o, hq, Option.map_some]
      · exact fun _ hnone => nomatch hnone
  | @late p q =>
      obtain ⟨p', a'⟩ := t'
      obtain rfl : a' = some (q.dressed (dress r)) := hl q rfl
      exact Or.inl ⟨_, .late, beneath_drop hb q, fun _ hnone => nomatch hnone⟩

end Layer

/-! ### Pools -/

namespace Machine

variable {m : Machine S M I W C V R T} {p : Pool S M I W R T}

/-- What a move does to the world. -/
def Happens (m : Machine S M I W C V R T) (w : W) : Move S M → W → Prop
  | .act o y, w' => ∃ c, m.respond w o c = some (y, w')
  | _, w' => w' = w

theorem Answers.happens {w w' : W} {l : Label M C V R} {x : Move S M}
    (h : m.Answers w l x w') : m.Happens w x w' := by
  obtain ⟨i, c, o, y, -, rfl, hy⟩ | ⟨rfl, ⟨a, rfl⟩ | rfl⟩ := h.cases
  · exact ⟨c, hy⟩
  · exact rfl
  · exact rfl

/-- A move of a task, with what it does to the world, is a step of the pool. -/
theorem exists_step {i : Nat} {r : R} {t u : Task S I} {x : Move S M} {w : W}
    (hi : p.tasks[i]? = some (r, t)) (hx : m.toKernel.Step t x u)
    (hw : m.Happens p.world x w) :
    ∃ l, m.step p l = some (p.advance i r u w (m.clock p.world) x) := by
  cases hx with
  | act y =>
      obtain ⟨c, hy⟩ := hw
      refine ⟨.act i c, ?_⟩
      simp only [step, hi, hy, Option.map_some]
  | @poll _ _ a _ hq =>
      obtain rfl := hw
      refine ⟨.poll i a, ?_⟩
      simp only [step, hi, hq, Option.map_some]
      rfl
  | drop hq =>
      obtain rfl := hw
      refine ⟨.drop i false, ?_⟩
      simp only [step, hi, hq, Option.map_some]
      rfl
  | abort hq =>
      obtain rfl := hw
      refine ⟨.drop i false, ?_⟩
      simp only [step, hi, hq, Option.map_some]
      rfl
  | late =>
      obtain rfl := hw
      refine ⟨.drop i true, ?_⟩
      simp only [step, hi]
      rfl

end Machine

namespace Pool

variable {inner : R' → R} {e : S.Op} {dress : R' → I → I} {p : Pool S M I W R T}
  {p' : Pool S M I W R' T} {i : Nat} {r : R'} {t t' u u' : Task S I} {x : Move S M}

/-- A pool, and what it is under the layer: the world is the same, and so are the tasks and
what they have done. -/
structure Beneath (inner : R' → R) (e : S.Op) (dress : R' → I → I) (p : Pool S M I W R T)
    (p' : Pool S M I W R' T) : Prop where
  world : p'.world = p.world
  length : p'.tasks.length = p.tasks.length
  tasks : ∀ (i : Nat) (r : R') (t' : Task S I), p'.tasks[i]? = some (r, t') →
    ∃ t, p.tasks[i]? = some (inner r, t) ∧
      Effects.Beneath e (dress r) (p.movesOf i) (p'.movesOf i) t t'
  log : p.log.Sublist p'.log
  scope : p.Scoped
  scope' : p'.Scoped

theorem Beneath.env (h : Beneath inner e dress p p') (w : W) :
    Beneath inner e dress { p with world := w } { p' with world := w } :=
  ⟨rfl, h.length, h.tasks, h.log, h.scope, h.scope'⟩

theorem Beneath.spawn (h : Beneath inner e dress p p') (r : R') (q : Prog S I) :
    Beneath inner e dress (p.spawn (inner r) q) (p'.spawn r (q.layered e (dress r))) where
  world := h.world
  length := by simp [Pool.spawn, h.length]
  tasks j r' t' hj := by
    rcases getElem?_spawn hj with hold | ⟨rfl, rfl, rfl⟩
    · obtain ⟨t, ht, hbeneath⟩ := h.tasks j r' t' hold
      refine ⟨t, ?_, hbeneath⟩
      rw [Pool.spawn, List.getElem?_append_left (List.getElem?_eq_some_iff.mp ht).1]
      exact ht
    · refine ⟨.ofProg q, ?_, ?_⟩
      · rw [Pool.spawn, h.length, List.getElem?_append_right (Nat.le_refl _)]
        simp
      · have hnone : (p.spawn (inner r') q).movesOf p'.tasks.length = [] := by
          rw [h.length]
          exact movesOf_fresh h.scope (Nat.le_refl _)
        have hnone' : (p'.spawn r' (q.layered e (dress r'))).movesOf p'.tasks.length = [] :=
          movesOf_fresh h.scope' (Nat.le_refl _)
        rw [hnone, hnone']
        exact ⟨.running (by simp), fun _ hq => by cases hq⟩
  log := h.log
  scope := scoped_spawn h.scope _ _
  scope' := scoped_spawn h.scope' _ _

/-- Both tasks make the same move. -/
theorem Beneath.advance (h : Beneath inner e dress p p') (hi : p.tasks[i]? = some (inner r, t))
    (hi' : p'.tasks[i]? = some (r, t'))
    (hb : Effects.Beneath e (dress r) (p.movesOf i ++ [x]) (p'.movesOf i ++ [x]) u u') (w : W)
    (time : T) :
    Beneath inner e dress (p.advance i (inner r) u w time x) (p'.advance i r u' w time x) where
  world := rfl
  length := by simp [Pool.advance, h.length]
  tasks j r' v' hj := by
    rcases getElem?_advance hi' hj with ⟨rfl, rfl, rfl⟩ | ⟨hij, hold⟩
    · refine ⟨u, List.getElem?_set_self (List.getElem?_eq_some_iff.mp hi).1, ?_⟩
      rw [movesOf_advance_self, movesOf_advance_self]
      exact hb
    · obtain ⟨v, hv, hbeneath⟩ := h.tasks j r' v' hold
      refine ⟨v, ?_, ?_⟩
      · rw [Pool.advance, List.getElem?_set_ne hij]
        exact hv
      · rw [movesOf_advance_ne p hij, movesOf_advance_ne p' hij]
        exact hbeneath
  log := h.log.append (List.Sublist.refl _)
  scope := scoped_advance h.scope (List.getElem?_eq_some_iff.mp hi).1 _ _ _ _ _
  scope' := scoped_advance h.scope' (List.getElem?_eq_some_iff.mp hi').1 _ _ _ _ _

/-- The outer task makes a move of the layer's. -/
theorem Beneath.own (h : Beneath inner e dress p p') (hi : p.tasks[i]? = some (inner r, t))
    (hi' : p'.tasks[i]? = some (r, t'))
    (hb : Effects.Beneath e (dress r) (p.movesOf i) (p'.movesOf i ++ [x]) t u') (time : T) :
    Beneath inner e dress p (p'.advance i r u' p.world time x) where
  world := rfl
  length := by simp [Pool.advance, h.length]
  tasks j r' v' hj := by
    rcases getElem?_advance hi' hj with ⟨rfl, rfl, rfl⟩ | ⟨hij, hold⟩
    · refine ⟨t, hi, ?_⟩
      rw [movesOf_advance_self]
      exact hb
    · obtain ⟨v, hv, hbeneath⟩ := h.tasks j r' v' hold
      refine ⟨v, hv, ?_⟩
      rw [movesOf_advance_ne p' hij]
      exact hbeneath
  log := h.log.trans (List.sublist_append_left _ _)
  scope := h.scope
  scope' := scoped_advance h.scope' (List.getElem?_eq_some_iff.mp hi').1 _ _ _ _ _

/-- Over each task there is one. -/
theorem Beneath.above (h : Beneath inner e dress p p') {r₀ : R}
    (hi : p.tasks[i]? = some (r₀, t)) :
    ∃ r t', p'.tasks[i]? = some (r, t') ∧ inner r = r₀ ∧
      Effects.Beneath e (dress r) (p.movesOf i) (p'.movesOf i) t t' := by
  have hlt : i < p'.tasks.length := by
    rw [h.length]
    exact (List.getElem?_eq_some_iff.mp hi).1
  obtain ⟨⟨r, t'⟩, hi'⟩ : ∃ n, p'.tasks[i]? = some n := ⟨_, List.getElem?_eq_getElem hlt⟩
  obtain ⟨t₁, ht₁, hbeneath⟩ := h.tasks i r t' hi'
  obtain ⟨rfl, rfl⟩ := Prod.mk.inj (Option.some.inj (hi.symm.trans ht₁))
  exact ⟨r, t', hi', rfl, hbeneath⟩

/-- No task has lost what it could be dropped with. -/
def Level (inner : R' → R) (dress : R' → I → I) (p : Pool S M I W R T)
    (p' : Pool S M I W R' T) : Prop :=
  ∀ (i : Nat) (r : R') (t t' : Task S I), p.tasks[i]? = some (inner r, t) →
    p'.tasks[i]? = some (r, t') → Layer.Level (dress r) t t'

theorem Level.spawn (h : Level inner dress p p') (hlength : p'.tasks.length = p.tasks.length)
    (r : R') (q : Prog S I) :
    Level inner dress (p.spawn (inner r) q) (p'.spawn r (q.layered e (dress r))) := by
  intro j r' v v' hj hj'
  rcases getElem?_spawn hj with hold | ⟨-, -, rfl⟩
  · rcases getElem?_spawn hj' with hold' | ⟨rfl, -, -⟩
    · exact h j r' v v' hold hold'
    · have hlt := (List.getElem?_eq_some_iff.mp hold).1
      omega
  · exact fun _ hnone => nomatch hnone

theorem Level.advance (h : Level inner dress p p') (hi : p.tasks[i]? = some (inner r, t))
    (hi' : p'.tasks[i]? = some (r, t')) (hl : Layer.Level (dress r) u u') (w w' : W)
    (time time' : T) (x' : Move S M) :
    Level inner dress (p.advance i (inner r) u w time x) (p'.advance i r u' w' time' x') := by
  intro j r' v v' hj hj'
  rcases getElem?_advance hi' hj' with ⟨rfl, rfl, rfl⟩ | ⟨hij, hold'⟩
  · rcases getElem?_advance hi hj with ⟨-, -, rfl⟩ | ⟨hne, -⟩
    · exact hl
    · exact absurd rfl hne
  · rcases getElem?_advance hi hj with ⟨hsame, -, -⟩ | ⟨-, hold⟩
    · exact absurd hsame hij
    · exact h j r' v v' hold hold'

end Pool

/-! ### Runs -/

namespace Layer

variable {m : Machine S M I W C V R T} {m' : Machine S M I W C V R' T} {inner : R' → R}
  {e : S.Op} {dress : R' → I → I} {p₀ p q : Pool S M I W R T} {p₀' p' q' : Pool S M I W R' T}

theorem happens (h : Layer m m' inner e dress) {w w' : W} {x : Move S M} :
    m'.Happens w x w' ↔ m.Happens w x w' := by
  unfold Machine.Happens
  rw [h.respond]

/-- A step of the outer machine is none of the inner one, or one. -/
theorem lower_step (h : Layer m m' inner e dress) {l : Label M C V R'}
    (hb : Pool.Beneath inner e dress p p') (hstep : m'.step p' l = some q') :
    Pool.Beneath inner e dress p q' ∨
      ∃ l q, m.step p l = some q ∧ Pool.Beneath inner e dress q q' := by
  obtain ⟨v, w, -, hw, rfl⟩ | ⟨r, -, rfl⟩ | ⟨i, r, t', u', x, w, -, hi', hx, hans, rfl⟩ :=
    m'.step_cases hstep
  · refine Or.inr ⟨.env v, { p with world := w }, ?_, hb.env w⟩
    have hw' : m.env p.world v = some w := by rw [← h.env, ← hb.world, hw]
    simp only [Machine.step, hw', Option.map_some]
  · refine Or.inr ⟨.spawn (inner r), _, rfl, ?_⟩
    rw [h.start r]
    exact hb.spawn r _
  · obtain ⟨t, hi, hbeneath⟩ := hb.tasks i r t' hi'
    have hhappens : m.Happens p.world x w := by
      rw [← h.happens, ← hb.world]
      exact hans.happens
    rcases h.lower hbeneath hx with ⟨y, rfl, hown⟩ | ⟨u, hu, hmove⟩
    · obtain ⟨c, hy⟩ := hhappens
      obtain rfl := h.unnoticed _ _ _ _ hy
      exact Or.inl (hb.own hi hi' hown _)
    · obtain ⟨l, hl⟩ := Machine.exists_step hi hu hhappens
      refine Or.inr ⟨l, _, hl, ?_⟩
      rw [h.clock, hb.world]
      exact hb.advance hi hi' hmove w _

/-- **What the outer machine comes to, the inner one comes to.** -/
theorem lowers (h : Layer m m' inner e dress) (h₀ : Pool.Beneath inner e dress p₀ p₀')
    (hreaches : m'.Reaches (fun _ _ => True) p₀' p') :
    ∃ p, m.Reaches (fun _ _ => True) p₀ p ∧ Pool.Beneath inner e dress p p' := by
  induction hreaches with
  | refl => exact ⟨p₀, .refl, h₀⟩
  | step _ _ hstep ih =>
      obtain ⟨p, hp, hb⟩ := ih
      rcases h.lower_step hb hstep with hsame | ⟨l, q, hl, hq⟩
      · exact ⟨p, hp, hsame⟩
      · exact ⟨q, hp.step trivial hl, hq⟩

/-- A step of the inner machine is one of the outer one, perhaps after one of the layer's. -/
theorem raise_step (h : Layer m m' inner e dress) {wrap : R → R'}
    (hwrap : ∀ r, inner (wrap r) = r)
    (hown : ∀ w, ∃ c y w', m.respond w e c = some (y, w')) {l : Label M C V R}
    (hb : Pool.Beneath inner e dress p p') (hl : Pool.Level inner dress p p')
    (hstep : m.step p l = some q) :
    ∃ q', m'.Reaches (fun _ _ => True) p' q' ∧ Pool.Beneath inner e dress q q' ∧
      Pool.Level inner dress q q' := by
  obtain ⟨v, w, -, hw, rfl⟩ | ⟨r, -, rfl⟩ | ⟨i, r₀, t, u, x, w, -, hi, hx, hans, rfl⟩ :=
    m.step_cases hstep
  · have hstep' : m'.step p' (.env v) = some { p' with world := w } := by
      have hw' : m'.env p'.world v = some w := by rw [h.env, hb.world, hw]
      simp only [Machine.step, hw', Option.map_some]
    exact ⟨_, .step .refl trivial hstep', hb.env w, hl⟩
  · have hspawn := hb.spawn (wrap r) (m.start r)
    have hlevel := hl.spawn hb.length (wrap r) (m.start r) (e := e)
    have hstart := h.start (wrap r)
    rw [hwrap] at hspawn hlevel hstart
    refine ⟨_, .step .refl trivial (l := .spawn (wrap r)) rfl, ?_, ?_⟩
    · rw [hstart]
      exact hspawn
    · rw [hstart]
      exact hlevel
  · obtain ⟨r, t', hi', rfl, hbeneath⟩ := hb.above hi
    have hclock : m.clock p.world = m'.clock p'.world := by rw [h.clock, hb.world]
    have hhappens : m'.Happens p'.world x w := by
      rw [h.happens, hb.world]
      exact hans.happens
    rcases h.raise hbeneath (hl i r t t' hi hi') hx with
      ⟨u', hu', hmove, hlevel⟩ | ⟨hx, hlate⟩
    · obtain ⟨l', hl'⟩ := Machine.exists_step hi' hu' hhappens
      refine ⟨_, .step .refl trivial hl', ?_, hl.advance hi hi' hlevel _ _ _ _ _⟩
      rw [hclock]
      exact hb.advance hi hi' hmove w _
    · obtain ⟨c, y, w', hy⟩ := hown p.world
      obtain rfl := h.unnoticed _ _ _ _ hy
      obtain ⟨v', u', hv', hmine, hu', hmove, hlevel⟩ := hlate y
      have hquiet : m'.Happens p'.world (.act e y) p'.world := by
        rw [h.happens, hb.world]
        exact ⟨c, hy⟩
      obtain ⟨l₁, hl₁⟩ := Machine.exists_step hi' hv' hquiet
      have hb₁ := hb.own hi hi' hmine (m'.clock p'.world)
      rw [← hb.world] at hb₁
      have hi₁ : (p'.advance i r v' p'.world (m'.clock p'.world) (.act e y)).tasks[i]?
          = some (r, v') := List.getElem?_set_self (List.getElem?_eq_some_iff.mp hi').1
      obtain ⟨l₂, hl₂⟩ := Machine.exists_step hi₁ hu' hhappens
      refine ⟨_, .step (.step .refl trivial hl₁) trivial hl₂, ?_, ?_⟩
      · have hmoves := p'.movesOf_advance_self i r v' p'.world (m'.clock p'.world) (.act e y)
        rw [← hmoves] at hmove
        rw [hclock]
        exact hb₁.advance hi hi₁ hmove w _
      · -- the layer's move leaves no trace among the tasks
        have htasks : ∀ time time', ((p'.advance i r v' p'.world time (.act e y)).advance i r u' w
            time' x).tasks = (p'.advance i r u' w time' x).tasks := fun _ _ => List.set_set _
        unfold Pool.Level
        rw [htasks]
        exact hl.advance hi hi' hlevel _ _ _ _ _

/-- **What the inner machine comes to, the outer one comes to.** -/
theorem raises (h : Layer m m' inner e dress) {wrap : R → R'} (hwrap : ∀ r, inner (wrap r) = r)
    (hown : ∀ w, ∃ c y w', m.respond w e c = some (y, w'))
    (h₀ : Pool.Beneath inner e dress p₀ p₀') (hl₀ : Pool.Level inner dress p₀ p₀')
    (hreaches : m.Reaches (fun _ _ => True) p₀ p) :
    ∃ p', m'.Reaches (fun _ _ => True) p₀' p' ∧ Pool.Beneath inner e dress p p' := by
  have hall : ∃ p', m'.Reaches (fun _ _ => True) p₀' p' ∧ Pool.Beneath inner e dress p p' ∧
      Pool.Level inner dress p p' := by
    induction hreaches with
    | refl => exact ⟨p₀', .refl, h₀, hl₀⟩
    | step _ _ hstep ih =>
        obtain ⟨p', hp', hb, hl⟩ := ih
        obtain ⟨q', hq', hbq, hlq⟩ := h.raise_step hwrap hown hb hl hstep
        exact ⟨q', hp'.trans hq', hbq, hlq⟩
  obtain ⟨p', hp', hb, -⟩ := hall
  exact ⟨p', hp', hb⟩

end Layer

end Effects
