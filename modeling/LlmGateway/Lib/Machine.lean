/-
Many programs over one shared world.

A pool holds a world, a list of tasks and the log of everything the tasks have done.
One step of the pool is one operation of one task, atomically, or an event of the
environment; so a reachable pool is what any interleaving of the tasks can produce.
A task that has returned an idle state may be polled, and a task may be dropped where
it is suspended: in an idle state, at an awaited operation, or just after one, before
the answer is looked at.  `abort` and `drop` name the drop glue that then runs.

Two results carry the rest.  `Reaches.conforms`: if every program a request starts
follows a protocol, every task of every reachable pool does, at the ghost its part of
the log determines.  `Reaches.shadow`: to show an invariant of the world, the ghosts
and the log, it is enough to look at the operations the protocol allows.  After these
two no proof has to look at a program in the middle of a run again.
-/
import LlmGateway.Lib.Prog
import Mathlib.Data.List.Basic
import Mathlib.Data.List.Induction

namespace Effects

/-- What a task can be made to do from the outside: how an idle task takes an item,
and the drop glue of idle states and of awaited operations. -/
structure Kernel (S : Sig) (M I : Type) where
  poll : I → M → Option (Prog S I)
  drop : I → Option (Prog S I)
  abort : S.Op → Option (Prog S I)

/-- A task: what is left of its program, and the drop glue of the await it is just
coming out of. -/
structure Task (S : Sig) (I : Type) where
  prog : Prog S I
  awaited : Option (Prog S I)

/-- The task a program starts. -/
def Task.ofProg {S : Sig} {I : Type} (p : Prog S I) : Task S I := ⟨p, none⟩

namespace Kernel

variable {S : Sig} {M I G : Type}

/-- One move of one task, whatever the world answers. -/
inductive Step (κ : Kernel S M I) : Task S I → Move S M → Task S I → Prop
  | act {e : S.Op} {k : S.Ans e → Prog S I} {a : Option (Prog S I)} (x : S.Ans e) :
      Step κ ⟨.op e k, a⟩ (.act e x) ⟨k x, κ.abort e⟩
  | poll {i : I} {a : Option (Prog S I)} {m : M} {q : Prog S I} (h : κ.poll i m = some q) :
      Step κ ⟨.ret i, a⟩ (.poll m) ⟨q, none⟩
  | drop {i : I} {a : Option (Prog S I)} {q : Prog S I} (h : κ.drop i = some q) :
      Step κ ⟨.ret i, a⟩ .drop ⟨q, none⟩
  | abort {e : S.Op} {k : S.Ans e → Prog S I} {a : Option (Prog S I)} {q : Prog S I}
      (h : κ.abort e = some q) : Step κ ⟨.op e k, a⟩ .drop ⟨q, none⟩
  | late {p q : Prog S I} : Step κ ⟨p, some q⟩ .drop ⟨q, none⟩

/-- A run of one task on its own. -/
inductive Local (κ : Kernel S M I) (t : Task S I) : List (Move S M) → Task S I → Prop
  | refl : Local κ t [] t
  | snoc {u v : Task S I} {ms : List (Move S M)} {m : Move S M}
      (h : Local κ t ms u) (hstep : κ.Step u m v) : Local κ t (ms ++ [m]) v

/-- What polls and drops must keep for a protocol to survive them. -/
structure Closed (κ : Kernel S M I) (π : Protocol S M G) (Q : I → G → Prop) : Prop where
  poll : ∀ i g m q, Q i g → κ.poll i m = some q → q.wp π (π.next g (.poll m)) Q
  drop : ∀ i g q, Q i g → κ.drop i = some q → q.wp π (π.next g .drop) Q
  abort : ∀ e g q, π.ok g e → κ.abort e = some q → q.wp π (π.next g .drop) Q
  late : ∀ e g q x, π.ok g e → κ.abort e = some q →
    q.wp π (π.next (π.next g (.act e x)) .drop) Q

/-- A task follows the protocol from its ghost on, dropped or not. -/
def Follows (π : Protocol S M G) (Q : I → G → Prop) (t : Task S I) (g : G) : Prop :=
  t.prog.wp π g Q ∧ ∀ q, t.awaited = some q → q.wp π (π.next g .drop) Q

variable {κ : Kernel S M I} {π : Protocol S M G} {Q : I → G → Prop}

theorem follows_ofProg {p : Prog S I} {g : G} (h : p.wp π g Q) :
    Follows π Q (Task.ofProg p) g :=
  ⟨h, fun _ hq => nomatch hq⟩

/-- The operation a task performs in a move, if any, is one the protocol allows. -/
def Allowed (π : Protocol S M G) (g : G) : Move S M → Prop
  | .act e _ => π.ok g e
  | _ => True

theorem Step.follows (hc : κ.Closed π Q) {t u : Task S I} {m : Move S M} {g : G}
    (hstep : κ.Step t m u) (ht : Follows π Q t g) :
    Allowed π g m ∧ Follows π Q u (π.next g m) := by
  obtain ⟨hp, ha⟩ := ht
  cases hstep with
  | @act e k a x =>
      refine ⟨hp.1, hp.2 x, ?_⟩
      intro q hq
      exact hc.late e g q x hp.1 hq
  | poll h => exact ⟨trivial, follows_ofProg (hc.poll _ _ _ _ hp h)⟩
  | drop h => exact ⟨trivial, follows_ofProg (hc.drop _ _ _ hp h)⟩
  | abort h => exact ⟨trivial, follows_ofProg (hc.abort _ _ _ hp.1 h)⟩
  | late => exact ⟨trivial, follows_ofProg (ha _ rfl)⟩

theorem obeys_snoc {ms : List (Move S M)} {m : Move S M} {g : G}
    (h : π.Obeys g ms) (hm : Allowed π (π.run g ms) m) : π.Obeys g (ms ++ [m]) := by
  rw [Protocol.obeys_append]
  refine ⟨h, ?_⟩
  cases m with
  | act e x => exact ⟨hm, trivial⟩
  | poll m => trivial
  | drop => trivial

theorem allowed_of_obeys {ms : List (Move S M)} {m : Move S M} {g : G}
    (h : π.Obeys g (ms ++ [m])) : π.Obeys g ms ∧ Allowed π (π.run g ms) m := by
  rw [Protocol.obeys_append] at h
  refine ⟨h.1, ?_⟩
  cases m with
  | act e x => exact h.2.1
  | poll m => trivial
  | drop => trivial

/-- What holds at first and is kept by every allowed move holds after a list of them. -/
theorem keeps_of_obeys {J : G → List (Move S M) → Prop} {g : G} (hinit : J g [])
    (hmove : ∀ g ms m, J g ms → Allowed π g m → J (π.next g m) (ms ++ [m]))
    {ms : List (Move S M)} (h : π.Obeys g ms) : J (π.run g ms) ms := by
  induction ms using List.reverseRecOn with
  | nil => exact hinit
  | append_singleton ms m ih =>
      obtain ⟨hobeys, hm⟩ := allowed_of_obeys h
      rw [Protocol.run_append]
      exact hmove _ ms m (ih hobeys) hm

/-- **A task that starts out following a protocol follows it for its whole run.** -/
theorem Local.follows (hc : κ.Closed π Q) {t u : Task S I} {ms : List (Move S M)} {g : G}
    (h : κ.Local t ms u) (ht : Follows π Q t g) :
    π.Obeys g ms ∧ Follows π Q u (π.run g ms) := by
  induction h with
  | refl => exact ⟨trivial, ht⟩
  | snoc _ hstep ih =>
      obtain ⟨hobeys, hu⟩ := ih
      obtain ⟨hok, hv⟩ := hstep.follows hc hu
      refine ⟨obeys_snoc hobeys hok, ?_⟩
      rw [Protocol.run_append]
      exact hv

/-- What holds at first and is kept by every move holds after a run; a task is polled only
where it is idle. -/
theorem Local.keeps (hc : κ.Closed π Q) {J : G → List (Move S M) → Prop}
    (hact : ∀ g ms e x, J g ms → π.ok g e → J (π.next g (.act e x)) (ms ++ [.act e x]))
    (hpoll : ∀ g ms i m q, J g ms → Q i g → κ.poll i m = some q →
      J (π.next g (.poll m)) (ms ++ [.poll m]))
    (hdrop : ∀ g ms, J g ms → J (π.next g .drop) (ms ++ [.drop])) {t u : Task S I}
    {ms : List (Move S M)} {g : G} (h : κ.Local t ms u) (ht : Follows π Q t g) (hg : J g []) :
    J (π.run g ms) ms := by
  induction h with
  | refl => exact hg
  | snoc h hstep ih =>
      have hu := (h.follows hc ht).2.1
      rw [Protocol.run_append]
      cases hstep with
      | act x => exact hact _ _ _ x ih hu.1
      | poll hpolled => exact hpoll _ _ _ _ _ ih hu hpolled
      | drop => exact hdrop _ _ ih
      | abort => exact hdrop _ _ ih
      | late => exact hdrop _ _ ih

/-- A task is only polled where it is idle. -/
theorem Local.polled (hc : κ.Closed π Q) {t u : Task S I} {ms before after : List (Move S M)}
    {m : M} {g : G} (h : κ.Local t ms u) (ht : Follows π Q t g)
    (hms : ms = before ++ .poll m :: after) :
    ∃ i q, κ.poll i m = some q ∧ Q i (π.run g before) := by
  induction h generalizing after with
  | refl => exact absurd hms (by simp)
  | @snoc u v ms m' h hstep ih =>
      rcases List.eq_nil_or_concat after with rfl | ⟨after', last, rfl⟩
      · obtain ⟨rfl, hm⟩ := List.append_inj' hms rfl
        obtain rfl := List.singleton_inj.mp hm
        have hu := (h.follows hc ht).2.1
        cases hstep with
        | poll hpoll => exact ⟨_, _, hpoll, hu⟩
      · have hsplit : ms ++ [m'] = (before ++ .poll m :: after') ++ [last] := by
          rw [hms]
          simp
        exact ih (List.append_inj' hsplit rfl).1

end Kernel

/-! ### The pool -/

/-- A kernel with a world behind it.  `C` resolves what the world leaves open (what an
upstream answers, say), `V` are the events of the environment, `R` the requests that
start tasks, `T` the time stamps of the log. -/
structure Machine (S : Sig) (M I W C V R T : Type) extends Kernel S M I where
  respond : W → (e : S.Op) → C → Option (S.Ans e × W)
  env : W → V → Option W
  start : R → Prog S I
  clock : W → T

/-- One line of the log. -/
structure Entry (S : Sig) (M T : Type) where
  task : Nat
  time : T
  move : Move S M

/-- The world, the tasks with the requests that started them, and the log. -/
structure Pool (S : Sig) (M I W R T : Type) where
  world : W
  tasks : List (R × Task S I)
  log : List (Entry S M T)

/-- What can happen next in a pool. -/
inductive Label (M C V R : Type)
  | env (v : V)
  | spawn (r : R)
  | act (i : Nat) (c : C)
  | poll (i : Nat) (m : M)
  | drop (i : Nat) (late : Bool)

namespace Pool

variable {S : Sig} {M I W R T G : Type}

/-- The moves task `i` has made. -/
def movesOf (p : Pool S M I W R T) (i : Nat) : List (Move S M) :=
  p.log.filterMap fun n => if n.task = i then some n.move else none

/-- Task `i` makes move `m`, is left as `t`, and the world as `w`. -/
def advance (p : Pool S M I W R T) (i : Nat) (r : R) (t : Task S I) (w : W) (time : T)
    (m : Move S M) : Pool S M I W R T :=
  { world := w, tasks := p.tasks.set i (r, t), log := p.log ++ [⟨i, time, m⟩] }

/-- The ghosts of the tasks, as the log determines them. -/
def ghosts (π : Protocol S M G) (g₀ : R → G) (p : Pool S M I W R T) : List G :=
  p.tasks.mapIdx fun i t => π.run (g₀ t.1) (p.movesOf i)

/-- The log speaks of tasks there are. -/
def Scoped (p : Pool S M I W R T) : Prop := ∀ n ∈ p.log, n.task < p.tasks.length

@[simp] theorem movesOf_advance_self (p : Pool S M I W R T) (i : Nat) (r : R)
    (t : Task S I) (w : W) (time : T) (m : Move S M) :
    (p.advance i r t w time m).movesOf i = p.movesOf i ++ [m] := by
  simp [movesOf, advance]

theorem movesOf_advance_ne (p : Pool S M I W R T) {i j : Nat} (h : i ≠ j) (r : R)
    (t : Task S I) (w : W) (time : T) (m : Move S M) :
    (p.advance i r t w time m).movesOf j = p.movesOf j := by
  simp [movesOf, advance, h]

theorem mem_movesOf {p : Pool S M I W R T} {i : Nat} {x : Move S M} :
    x ∈ p.movesOf i ↔ ∃ n ∈ p.log, n.task = i ∧ n.move = x := by
  simp [movesOf]

theorem movesOf_fresh {p : Pool S M I W R T} (h : p.Scoped) {i : Nat}
    (hi : p.tasks.length ≤ i) : p.movesOf i = [] := by
  simp only [movesOf, List.filterMap_eq_nil_iff]
  intro n hn
  rw [if_neg (by have := h n hn; omega)]

@[simp] theorem ghosts_length (π : Protocol S M G) (g₀ : R → G) (p : Pool S M I W R T) :
    (p.ghosts π g₀).length = p.tasks.length := by
  simp [ghosts]

theorem getElem?_ghosts (π : Protocol S M G) (g₀ : R → G) {p : Pool S M I W R T} {i : Nat}
    {r : R} {t : Task S I} (h : p.tasks[i]? = some (r, t)) :
    (p.ghosts π g₀)[i]? = some (π.run (g₀ r) (p.movesOf i)) := by
  simp [ghosts, List.getElem?_mapIdx, h]

theorem exists_task_of_ghost {π : Protocol S M G} {g₀ : R → G} {p : Pool S M I W R T} {i : Nat}
    {g : G} (h : (p.ghosts π g₀)[i]? = some g) :
    ∃ r t, p.tasks[i]? = some (r, t) ∧ g = π.run (g₀ r) (p.movesOf i) := by
  unfold ghosts at h
  rw [List.getElem?_mapIdx, Option.map_eq_some_iff] at h
  obtain ⟨⟨r, t⟩, ht, rfl⟩ := h
  exact ⟨r, t, ht, rfl⟩

theorem ghosts_advance (π : Protocol S M G) (g₀ : R → G) {p : Pool S M I W R T} {i : Nat}
    {r : R} {t₀ : Task S I} (h : p.tasks[i]? = some (r, t₀)) (t : Task S I) (w : W) (time : T)
    (m : Move S M) :
    (p.advance i r t w time m).ghosts π g₀
      = (p.ghosts π g₀).set i (π.next (π.run (g₀ r) (p.movesOf i)) m) := by
  refine List.ext_getElem? fun j => ?_
  by_cases hij : i = j
  · subst hij
    have hlt : i < p.tasks.length := (List.getElem?_eq_some_iff.mp h).1
    have hset : (p.advance i r t w time m).tasks[i]? = some (r, t) := by
      simp [advance, hlt]
    rw [getElem?_ghosts π g₀ hset, movesOf_advance_self, Protocol.run_append,
      List.getElem?_set_self (by simpa using hlt)]
    rfl
  · rw [List.getElem?_set_ne hij]
    simp only [ghosts, List.getElem?_mapIdx, movesOf_advance_ne p hij]
    rw [show (p.advance i r t w time m).tasks[j]? = p.tasks[j]? from by
      simp [advance, List.getElem?_set_ne hij]]

theorem scoped_advance {p : Pool S M I W R T} (h : p.Scoped) {i : Nat}
    (hi : i < p.tasks.length) (r : R) (t : Task S I) (w : W) (time : T) (m : Move S M) :
    (p.advance i r t w time m).Scoped := by
  intro n hn
  rcases List.mem_append.mp hn with hold | hnew
  · simpa [advance] using h n hold
  · rw [List.mem_singleton.mp hnew]
    simpa [advance] using hi

/-- A request arrives. -/
def spawn (p : Pool S M I W R T) (r : R) (q : Prog S I) : Pool S M I W R T :=
  { p with tasks := p.tasks ++ [(r, Task.ofProg q)] }

theorem ghosts_spawn (π : Protocol S M G) (g₀ : R → G) {p : Pool S M I W R T} (h : p.Scoped)
    (r : R) (q : Prog S I) :
    (p.spawn r q).ghosts π g₀ = p.ghosts π g₀ ++ [g₀ r] := by
  have hfresh : (p.spawn r q).movesOf p.tasks.length = [] := movesOf_fresh h (Nat.le_refl _)
  have hsame : ∀ i, (p.spawn r q).movesOf i = p.movesOf i := fun _ => rfl
  unfold ghosts
  rw [show (p.spawn r q).tasks = p.tasks ++ [(r, Task.ofProg q)] from rfl, List.mapIdx_append]
  simp [hsame, movesOf_fresh h (Nat.le_refl _)]

theorem getElem?_spawn {p : Pool S M I W R T} {r r' : R} {q : Prog S I} {j : Nat}
    {t : Task S I} (h : (p.spawn r q).tasks[j]? = some (r', t)) :
    p.tasks[j]? = some (r', t) ∨ (j = p.tasks.length ∧ r' = r ∧ t = Task.ofProg q) := by
  rcases Nat.lt_or_ge j p.tasks.length with hlt | hge
  · rw [spawn, List.getElem?_append_left hlt] at h
    exact Or.inl h
  · rw [spawn, List.getElem?_append_right hge, List.getElem?_singleton] at h
    split at h
    · simp only [Option.some.injEq, Prod.mk.injEq] at h
      exact Or.inr ⟨by omega, h.1.symm, h.2.symm⟩
    · cases h

theorem getElem?_advance {p : Pool S M I W R T} {i j : Nat} {r r' : R} {t₀ t u : Task S I}
    {w : W} {time : T} {m : Move S M} (hi : p.tasks[i]? = some (r, t₀))
    (h : (p.advance i r t w time m).tasks[j]? = some (r', u)) :
    (i = j ∧ r' = r ∧ u = t) ∨ (i ≠ j ∧ p.tasks[j]? = some (r', u)) := by
  by_cases hij : i = j
  · subst hij
    rw [advance, List.getElem?_set_self (List.getElem?_eq_some_iff.mp hi).1] at h
    simp only [Option.some.injEq, Prod.mk.injEq] at h
    exact Or.inl ⟨rfl, h.1.symm, h.2.symm⟩
  · rw [advance, List.getElem?_set_ne hij] at h
    exact Or.inr ⟨hij, h⟩

theorem scoped_spawn {p : Pool S M I W R T} (h : p.Scoped) (r : R) (q : Prog S I) :
    (p.spawn r q).Scoped := by
  intro n hn
  have := h n hn
  simp only [spawn, List.length_append, List.length_singleton]
  omega

end Pool

namespace Machine

variable {S : Sig} {M I W C V R T G : Type} (m : Machine S M I W C V R T)

/-- One step of a pool, as a function of what happens. -/
def step (p : Pool S M I W R T) : Label M C V R → Option (Pool S M I W R T)
  | .env v => (m.env p.world v).map fun w => { p with world := w }
  | .spawn r => some (p.spawn r (m.start r))
  | .act i c =>
      match p.tasks[i]? with
      | some (r, ⟨.op e k, _⟩) =>
          (m.respond p.world e c).map fun y =>
            p.advance i r ⟨k y.1, m.abort e⟩ y.2 (m.clock p.world) (.act e y.1)
      | _ => none
  | .poll i x =>
      match p.tasks[i]? with
      | some (r, ⟨.ret s, _⟩) =>
          (m.poll s x).map fun q =>
            p.advance i r (Task.ofProg q) p.world (m.clock p.world) (.poll x)
      | _ => none
  | .drop i false =>
      match p.tasks[i]? with
      | some (r, ⟨.ret s, _⟩) =>
          (m.drop s).map fun q =>
            p.advance i r (Task.ofProg q) p.world (m.clock p.world) .drop
      | some (r, ⟨.op e _, _⟩) =>
          (m.abort e).map fun q =>
            p.advance i r (Task.ofProg q) p.world (m.clock p.world) .drop
      | none => none
  | .drop i true =>
      match p.tasks[i]? with
      | some (r, ⟨_, some q⟩) =>
          some (p.advance i r (Task.ofProg q) p.world (m.clock p.world) .drop)
      | _ => none

/-- A step whose world part is what the machine answers. -/
def Answers (w : W) : Label M C V R → Move S M → W → Prop
  | .act _ c, .act e x, w' => m.respond w e c = some (x, w')
  | .poll _ _, .poll _, w' => w' = w
  | .drop _ _, .drop, w' => w' = w
  | _, _, _ => False

theorem Answers.cases {w w' : W} {l : Label M C V R} {x : Move S M}
    (h : m.Answers w l x w') :
    (∃ i c e y, l = .act i c ∧ x = .act e y ∧ m.respond w e c = some (y, w')) ∨
    (w' = w ∧ ((∃ a, x = .poll a) ∨ x = .drop)) := by
  cases l with
  | env v => exact h.elim
  | spawn r => exact h.elim
  | act i c =>
      cases x with
      | act e y => exact Or.inl ⟨i, c, e, y, rfl, rfl, h⟩
      | poll a => exact h.elim
      | drop => exact h.elim
  | poll i a =>
      cases x with
      | act e y => exact h.elim
      | poll a => exact Or.inr ⟨h, Or.inl ⟨a, rfl⟩⟩
      | drop => exact h.elim
  | drop i late =>
      cases x with
      | act e y => exact h.elim
      | poll a => exact h.elim
      | drop => exact Or.inr ⟨h, Or.inr rfl⟩

/-- An operation is answered by the world. -/
theorem Answers.act {w w' : W} {l : Label M C V R} {e : S.Op} {y : S.Ans e}
    (h : m.Answers w l (.act e y) w') : ∃ c, m.respond w e c = some (y, w') := by
  cases l with
  | env v => exact h.elim
  | spawn r => exact h.elim
  | act i c => exact ⟨c, h⟩
  | poll i a => exact h.elim
  | drop i late => exact h.elim

/-- Which task a label moves. -/
def taskOf : Label M C V R → Option Nat
  | .env _ => none
  | .spawn _ => none
  | .act i _ => some i
  | .poll i _ => some i
  | .drop i _ => some i

/-- Everything a step can be. -/
theorem step_cases {p p' : Pool S M I W R T} {l : Label M C V R} (h : m.step p l = some p') :
    (∃ v w, l = .env v ∧ m.env p.world v = some w ∧ p' = { p with world := w }) ∨
    (∃ r, l = .spawn r ∧ p' = p.spawn r (m.start r)) ∨
    (∃ i r t t' x w, taskOf l = some i ∧ p.tasks[i]? = some (r, t) ∧
      m.toKernel.Step t x t' ∧ m.Answers p.world l x w ∧
      p' = p.advance i r t' w (m.clock p.world) x) := by
  cases l with
  | env v =>
      simp only [step, Option.map_eq_some_iff] at h
      obtain ⟨w, hw, rfl⟩ := h
      exact Or.inl ⟨v, w, rfl, hw, rfl⟩
  | spawn r =>
      simp only [step, Option.some.injEq] at h
      exact Or.inr (Or.inl ⟨r, rfl, h.symm⟩)
  | act i c =>
      refine Or.inr (Or.inr ?_)
      simp only [step] at h
      split at h
      · rename_i r e k a hi
        obtain ⟨⟨x, w⟩, hx, rfl⟩ := Option.map_eq_some_iff.mp h
        exact ⟨i, r, _, _, _, w, rfl, hi, .act x, hx, rfl⟩
      · cases h
  | poll i x =>
      refine Or.inr (Or.inr ?_)
      simp only [step] at h
      split at h
      · rename_i r s a hi
        obtain ⟨q, hq, rfl⟩ := Option.map_eq_some_iff.mp h
        exact ⟨i, r, _, _, _, p.world, rfl, hi, .poll hq, rfl, rfl⟩
      · cases h
  | drop i late =>
      refine Or.inr (Or.inr ?_)
      cases late with
      | false =>
          simp only [step] at h
          split at h
          · rename_i r s a hi
            obtain ⟨q, hq, rfl⟩ := Option.map_eq_some_iff.mp h
            exact ⟨i, r, _, _, _, p.world, rfl, hi, .drop hq, rfl, rfl⟩
          · rename_i r e k a hi
            obtain ⟨q, hq, rfl⟩ := Option.map_eq_some_iff.mp h
            exact ⟨i, r, _, _, _, p.world, rfl, hi, .abort hq, rfl, rfl⟩
          · cases h
      | true =>
          simp only [step] at h
          split at h
          · rename_i r q a hi
            simp only [Option.some.injEq] at h
            exact ⟨i, r, _, _, _, p.world, rfl, hi, .late, rfl, h.symm⟩
          · cases h

/-- What a step does to the world: it is the environment's, or an operation is answered, or
nothing has changed. -/
theorem step_world {p p' : Pool S M I W R T} {l : Label M C V R} (h : m.step p l = some p') :
    (∃ v, l = .env v ∧ m.env p.world v = some p'.world) ∨
    (∃ i c r e k a y, l = .act i c ∧ p.tasks[i]? = some (r, ⟨.op e k, a⟩) ∧
      m.respond p.world e c = some (y, p'.world)) ∨
    p'.world = p.world := by
  obtain ⟨v, w, rfl, hw, rfl⟩ | ⟨r, -, rfl⟩ | ⟨i, r, t, t', x, w, hi, ht, hmove, hans, rfl⟩ :=
    m.step_cases h
  · exact Or.inl ⟨v, rfl, hw⟩
  · exact Or.inr (Or.inr rfl)
  · obtain ⟨j, c, e, y, rfl, rfl, hy⟩ | ⟨rfl, -⟩ := hans.cases
    · obtain rfl := Option.some.inj hi
      cases hmove
      exact Or.inr (Or.inl ⟨_, c, r, e, _, _, y, rfl, ht, hy⟩)
    · exact Or.inr (Or.inr rfl)

/-- The pools a run can reach, all of whose steps satisfy `ok`. -/
inductive Reaches (ok : Pool S M I W R T → Label M C V R → Prop) (p₀ : Pool S M I W R T) :
    Pool S M I W R T → Prop
  | refl : Reaches ok p₀ p₀
  | step {p p' : Pool S M I W R T} {l : Label M C V R} (h : Reaches ok p₀ p) (hok : ok p l)
      (hstep : m.step p l = some p') : Reaches ok p₀ p'

variable {m}

theorem Reaches.mono {ok ok' : Pool S M I W R T → Label M C V R → Prop}
    {p₀ p : Pool S M I W R T} (hok : ∀ p l, ok p l → ok' p l) (h : m.Reaches ok p₀ p) :
    m.Reaches ok' p₀ p := by
  induction h with
  | refl => exact .refl
  | step _ hl hstep ih => exact .step ih (hok _ _ hl) hstep

theorem Reaches.trans {ok : Pool S M I W R T → Label M C V R → Prop}
    {p₀ p q : Pool S M I W R T} (h : m.Reaches ok p₀ p) (h' : m.Reaches ok p q) :
    m.Reaches ok p₀ q := by
  induction h' with
  | refl => exact h
  | step _ hl hstep ih => exact .step ih hl hstep

/-- What a run asks of arriving requests holds of every request there is. -/
theorem Reaches.requests {ok : Pool S M I W R T → Label M C V R → Prop}
    {p₀ p : Pool S M I W R T} {P : R → Prop} (h₀ : p₀.tasks = [])
    (hok : ∀ p r, ok p (.spawn r) → P r) (h : m.Reaches ok p₀ p) :
    ∀ (i : Nat) (r : R) (t : Task S I), p.tasks[i]? = some (r, t) → P r := by
  induction h with
  | refl => simp [h₀]
  | step h hl hstep ih =>
      intro i r t hi
      obtain ⟨v, w, rfl, -, rfl⟩ | ⟨r', rfl, rfl⟩ | ⟨j, r', u, u', x, w, -, hj, -, -, rfl⟩ :=
        m.step_cases hstep
      · exact ih i r t hi
      · rcases Pool.getElem?_spawn hi with hold | ⟨-, rfl, -⟩
        · exact ih i r t hold
        · exact hok _ r hl
      · rcases Pool.getElem?_advance hj hi with ⟨rfl, rfl, rfl⟩ | ⟨-, hold⟩
        · exact ih j r u hj
        · exact ih i r t hold

/-- What the steps of a run are allowed to be holds of every line of its log. -/
theorem Reaches.logged {ok : Pool S M I W R T → Label M C V R → Prop}
    {p₀ p : Pool S M I W R T} {P : R → Move S M → Prop} (h₀ : p₀.log = [])
    (hok : ∀ (p : Pool S M I W R T) l i r t t' x w, ok p l → taskOf l = some i →
      p.tasks[i]? = some (r, t) → m.toKernel.Step t x t' → m.Answers p.world l x w → P r x)
    (h : m.Reaches ok p₀ p) :
    ∀ n ∈ p.log, ∃ r t, p.tasks[n.task]? = some (r, t) ∧ P r n.move := by
  induction h with
  | refl => simp [h₀]
  | step h hl hstep ih =>
      intro n hn
      obtain ⟨v, w, rfl, -, rfl⟩ | ⟨r', rfl, rfl⟩ | ⟨j, r', u, u', x, w, hj, hi, hx, hans, rfl⟩ :=
        m.step_cases hstep
      · exact ih n hn
      · obtain ⟨r, t, ht, hP⟩ := ih n hn
        refine ⟨r, t, ?_, hP⟩
        rw [Pool.spawn, List.getElem?_append_left (List.getElem?_eq_some_iff.mp ht).1]
        exact ht
      · have hlt := (List.getElem?_eq_some_iff.mp hi).1
        rcases List.mem_append.mp hn with hold | hnew
        · obtain ⟨r, t, ht, hP⟩ := ih n hold
          by_cases hjn : j = n.task
          · subst hjn
            obtain ⟨rfl, -⟩ := Prod.mk.inj (Option.some.inj (hi.symm.trans ht))
            exact ⟨_, u', List.getElem?_set_self hlt, hP⟩
          · refine ⟨r, t, ?_, hP⟩
            rw [Pool.advance, List.getElem?_set_ne hjn]
            exact ht
        · obtain rfl := List.mem_singleton.mp hnew
          exact ⟨r', u', List.getElem?_set_self hlt, hok _ _ _ _ _ _ _ _ hl hj hi hx hans⟩

variable (m)

/-! ### Protocols over whole runs -/

/-- The machine's requests, polls and drops all keep to the protocol. -/
structure Disciplined (π : Protocol S M G) (g₀ : R → G) (Q : I → G → Prop) : Prop
    extends m.toKernel.Closed π Q where
  start : ∀ r, (m.start r).wp π (g₀ r) Q

end Machine

/-- Every task follows the protocol at the ghost its part of the log determines. -/
def Pool.Conforms {S : Sig} {M I W R T G : Type} (π : Protocol S M G) (g₀ : R → G)
    (Q : I → G → Prop) (p : Pool S M I W R T) : Prop :=
  p.Scoped ∧ ∀ (i : Nat) (r : R) (t : Task S I), p.tasks[i]? = some (r, t) →
    Kernel.Follows π Q t (π.run (g₀ r) (p.movesOf i))

namespace Machine

variable {S : Sig} {M I W C V R T G : Type} {m : Machine S M I W C V R T}
  {ok : Pool S M I W R T → Label M C V R → Prop} {p₀ p : Pool S M I W R T}
  {π : Protocol S M G} {g₀ : R → G} {Q : I → G → Prop}

/-- A property of the tasks that they start with and that their moves keep is kept by a step;
it may speak of the task's request and of all its moves so far. -/
theorem step_tasks {J : R → List (Move S M) → Task S I → Prop}
    (hstart : ∀ r, J r [] (Task.ofProg (m.start r)))
    (hmove : ∀ r ms t x t', J r ms t → m.toKernel.Step t x t' → J r (ms ++ [x]) t')
    {p' : Pool S M I W R T} {l : Label M C V R} (hstep : m.step p l = some p')
    (h : p.Scoped ∧ ∀ (i : Nat) (r : R) (t : Task S I), p.tasks[i]? = some (r, t) →
      J r (p.movesOf i) t) :
    p'.Scoped ∧ ∀ (i : Nat) (r : R) (t : Task S I), p'.tasks[i]? = some (r, t) →
      J r (p'.movesOf i) t := by
  obtain ⟨hscoped, htasks⟩ := h
  obtain ⟨v, w, -, -, rfl⟩ | ⟨r, -, rfl⟩ | ⟨i, r, t, t', x, w, -, hi, hx, -, rfl⟩ :=
    m.step_cases hstep
  · exact ⟨hscoped, htasks⟩
  · refine ⟨Pool.scoped_spawn hscoped _ _, ?_⟩
    intro j r' t' hj
    rcases Pool.getElem?_spawn hj with hold | ⟨rfl, rfl, rfl⟩
    · exact htasks j r' t' hold
    · rw [show (p.spawn r' (m.start r')).movesOf p.tasks.length = [] from
        Pool.movesOf_fresh hscoped (Nat.le_refl _)]
      exact hstart r'
  · refine ⟨Pool.scoped_advance hscoped (List.getElem?_eq_some_iff.mp hi).1 _ _ _ _ _, ?_⟩
    intro j r' u hj
    rcases Pool.getElem?_advance hi hj with ⟨rfl, rfl, rfl⟩ | ⟨hij, hold⟩
    · rw [Pool.movesOf_advance_self]
      exact hmove _ _ t x _ (htasks i r' t hi) hx
    · rw [Pool.movesOf_advance_ne p hij]
      exact htasks j r' u hold

theorem step_conforms (hd : m.Disciplined π g₀ Q) {p' : Pool S M I W R T} {l : Label M C V R}
    (h : p.Conforms π g₀ Q) (hstep : m.step p l = some p') : p'.Conforms π g₀ Q := by
  refine step_tasks (J := fun r ms t => Kernel.Follows π Q t (π.run (g₀ r) ms)) ?_ ?_ hstep h
  · intro r
    exact Kernel.follows_ofProg (hd.start r)
  · intro r ms t x t' hfollows hx
    rw [Protocol.run_append]
    exact (hx.follows hd.toClosed hfollows).2

/-- **Every task of every reachable pool follows the protocol.** -/
theorem Reaches.conforms (hd : m.Disciplined π g₀ Q) (h₀ : p₀.Conforms π g₀ Q)
    (h : m.Reaches ok p₀ p) : p.Conforms π g₀ Q := by
  induction h with
  | refl => exact h₀
  | step _ _ hstep ih => exact step_conforms hd ih hstep

/-- Task `i` makes move `x`. -/
def Moves (m : Machine S M I W C V R T) (p : Pool S M I W R T) (i : Nat) (x : Move S M) : Prop :=
  ∃ r t t', p.tasks[i]? = some (r, t) ∧ m.toKernel.Step t x t'

/-- A task that performs an operation has it next in its program. -/
theorem Moves.act {i : Nat} {e : S.Op} {y : S.Ans e} (h : m.Moves p i (.act e y)) :
    ∃ r k a, p.tasks[i]? = some (r, ⟨.op e k, a⟩) := by
  obtain ⟨r, t, t', ht, hstep⟩ := h
  cases hstep with
  | act x => exact ⟨r, _, _, ht⟩

/-- What a step does to the world, the ghosts and the log. -/
theorem step_shadow (hd : m.Disciplined π g₀ Q) {p' : Pool S M I W R T} {l : Label M C V R}
    (h : p.Conforms π g₀ Q) (hstep : m.step p l = some p') :
    (∃ v, l = .env v ∧ m.env p.world v = some p'.world ∧
      p'.ghosts π g₀ = p.ghosts π g₀ ∧ p'.log = p.log) ∨
    (∃ r, l = .spawn r ∧ p'.world = p.world ∧
      p'.ghosts π g₀ = p.ghosts π g₀ ++ [g₀ r] ∧ p'.log = p.log) ∨
    (∃ i g x, taskOf l = some i ∧ m.Moves p i x ∧ (p.ghosts π g₀)[i]? = some g ∧
      Kernel.Allowed π g x ∧ m.Answers p.world l x p'.world ∧
      p'.ghosts π g₀ = (p.ghosts π g₀).set i (π.next g x) ∧
      p'.log = p.log ++ [⟨i, m.clock p.world, x⟩]) := by
  obtain ⟨hscoped, htasks⟩ := h
  obtain ⟨v, w, rfl, hw, rfl⟩ | ⟨r, rfl, rfl⟩ | ⟨i, r, t, t', x, w, hl, hi, hx, hans, rfl⟩ :=
    m.step_cases hstep
  · exact Or.inl ⟨v, rfl, hw, rfl, rfl⟩
  · exact Or.inr (Or.inl ⟨r, rfl, rfl, Pool.ghosts_spawn π g₀ hscoped _ _, rfl⟩)
  · exact Or.inr (Or.inr ⟨i, _, x, hl, ⟨r, t, t', hi, hx⟩, Pool.getElem?_ghosts π g₀ hi,
      (hx.follows hd.toClosed (htasks i r t hi)).1, hans, Pool.ghosts_advance π g₀ hi _ _ _ _,
      rfl⟩)

/--
**The rule for invariants of runs.**  What holds at the start and survives the
environment, arriving requests and every move the protocol allows, holds of every
reachable pool.  The moves are those of a task whose ghost is `g`; programs do not
occur.
-/
theorem Reaches.shadow (hd : m.Disciplined π g₀ Q) (h₀ : p₀.Conforms π g₀ Q)
    {J : W → List G → List (Entry S M T) → Prop}
    (hinit : J p₀.world (p₀.ghosts π g₀) p₀.log)
    (henv : ∀ (p : Pool S M I W R T) v w, ok p (.env v) → m.env p.world v = some w →
      J p.world (p.ghosts π g₀) p.log → J w (p.ghosts π g₀) p.log)
    (hspawn : ∀ (p : Pool S M I W R T) r, J p.world (p.ghosts π g₀) p.log →
      J p.world (p.ghosts π g₀ ++ [g₀ r]) p.log)
    (hmove : ∀ (p : Pool S M I W R T) (l : Label M C V R) i g x w, ok p l →
      taskOf l = some i → (p.ghosts π g₀)[i]? = some g → Kernel.Allowed π g x →
      m.Answers p.world l x w → J p.world (p.ghosts π g₀) p.log →
      J w ((p.ghosts π g₀).set i (π.next g x)) (p.log ++ [⟨i, m.clock p.world, x⟩]))
    (h : m.Reaches ok p₀ p) : J p.world (p.ghosts π g₀) p.log := by
  induction h with
  | refl => exact hinit
  | @step p p' l h hok hstep ih =>
      obtain ⟨v, rfl, hw, hg, hlog⟩ | ⟨r, rfl, hw, hg, hlog⟩ |
        ⟨i, g, x, hl, -, hi, hx, hans, hg, hlog⟩ := step_shadow hd (h.conforms hd h₀) hstep
      · rw [hg, hlog]
        exact henv p v _ hok hw ih
      · rw [hw, hg, hlog]
        exact hspawn p r ih
      · rw [hg, hlog]
        exact hmove p l i g x _ hok hl hi hx hans ih

/-- Every task of a run that started with none has run by itself from the program its
request starts. -/
theorem Reaches.local (h₀ : p₀.tasks = []) (h₁ : p₀.log = []) (h : m.Reaches ok p₀ p) :
    p.Scoped ∧ ∀ (i : Nat) (r : R) (t : Task S I), p.tasks[i]? = some (r, t) →
      m.toKernel.Local (Task.ofProg (m.start r)) (p.movesOf i) t := by
  induction h with
  | refl => exact ⟨by simp [Pool.Scoped, h₁], by simp [h₀]⟩
  | step _ _ hstep ih =>
      refine step_tasks (J := fun r ms t => m.toKernel.Local (Task.ofProg (m.start r)) ms t) ?_ ?_
        hstep ih
      · intro r
        exact .refl
      · intro r ms t x t' hlocal hx
        exact hlocal.snoc hx

/-- What a task of a run has done is allowed by the protocol, move by move. -/
theorem Reaches.obeys (hd : m.Disciplined π g₀ Q) (h₀ : p₀.tasks = []) (h₁ : p₀.log = [])
    (h : m.Reaches ok p₀ p) {i : Nat} {r : R} {t : Task S I} (ht : p.tasks[i]? = some (r, t)) :
    π.Obeys (g₀ r) (p.movesOf i) ∧ Kernel.Follows π Q t (π.run (g₀ r) (p.movesOf i)) :=
  ((h.local h₀ h₁).2 i r t ht).follows hd.toClosed (Kernel.follows_ofProg (hd.start r))

/-! ### Watching a run -/

/-- A run from `p₀` with what is observed of its moves, in order. -/
inductive Observed {O : Type} (m : Machine S M I W C V R T) (π : Protocol S M G) (g₀ : R → G)
    (ok : Pool S M I W R T → Label M C V R → Prop) (obs : W → G → Move S M → W → O)
    (p₀ : Pool S M I W R T) : Pool S M I W R T → List O → Prop
  | refl : Observed m π g₀ ok obs p₀ p₀ []
  | quiet {p p' : Pool S M I W R T} {l : Label M C V R} {os : List O}
      (h : Observed m π g₀ ok obs p₀ p os) (hok : ok p l) (hstep : m.step p l = some p')
      (hlog : p'.log = p.log) : Observed m π g₀ ok obs p₀ p' os
  | move {p p' : Pool S M I W R T} {l : Label M C V R} {os : List O} {n : Entry S M T} {g : G}
      (h : Observed m π g₀ ok obs p₀ p os) (hok : ok p l) (hstep : m.step p l = some p')
      (hg : (p.ghosts π g₀)[n.task]? = some g) (hlog : p'.log = p.log ++ [n]) :
      Observed m π g₀ ok obs p₀ p' (os ++ [obs p.world g n.move p'.world])

section Observed

variable {O : Type} {obs : W → G → Move S M → W → O} {os : List O}

theorem Observed.reaches (h : Observed m π g₀ ok obs p₀ p os) : m.Reaches ok p₀ p := by
  induction h with
  | refl => exact .refl
  | quiet _ hok hstep _ ih => exact .step ih hok hstep
  | move _ hok hstep _ _ ih => exact .step ih hok hstep

/-- The rule for invariants that speak of what was observed. -/
theorem Observed.shadow (hd : m.Disciplined π g₀ Q) (h₀ : p₀.Conforms π g₀ Q)
    {J : W → List G → List O → Prop} (hinit : J p₀.world (p₀.ghosts π g₀) [])
    (henv : ∀ (p : Pool S M I W R T) v w os, ok p (.env v) → m.env p.world v = some w →
      J p.world (p.ghosts π g₀) os → J w (p.ghosts π g₀) os)
    (hspawn : ∀ (p : Pool S M I W R T) r os, J p.world (p.ghosts π g₀) os →
      J p.world (p.ghosts π g₀ ++ [g₀ r]) os)
    (hmove : ∀ (p : Pool S M I W R T) (l : Label M C V R) i g x w os, ok p l →
      taskOf l = some i → m.Moves p i x → (p.ghosts π g₀)[i]? = some g →
      Kernel.Allowed π g x → m.Answers p.world l x w → J p.world (p.ghosts π g₀) os →
      J w ((p.ghosts π g₀).set i (π.next g x)) (os ++ [obs p.world g x w]))
    (h : Observed m π g₀ ok obs p₀ p os) : J p.world (p.ghosts π g₀) os := by
  induction h with
  | refl => exact hinit
  | @quiet p p' l os h hok hstep hlog ih =>
      obtain ⟨v, rfl, hw, hg, -⟩ | ⟨r, rfl, hw, hg, -⟩ | ⟨i, g, x, -, -, -, -, -, -, hlog'⟩ :=
        step_shadow hd (h.reaches.conforms hd h₀) hstep
      · rw [hg]
        exact henv p v _ os hok hw ih
      · rw [hw, hg]
        exact hspawn p r os ih
      · rw [hlog] at hlog'
        exact absurd hlog' (by simp)
  | @move p p' l os n g h hok hstep hn hlog ih =>
      obtain ⟨v, -, -, -, hlog'⟩ | ⟨r, -, -, -, hlog'⟩ |
        ⟨i, g', x, hl, hmoves, hi, hx, hans, hg, hlog'⟩ :=
          step_shadow hd (h.reaches.conforms hd h₀) hstep
      · rw [hlog'] at hlog
        exact absurd hlog (by simp)
      · rw [hlog'] at hlog
        exact absurd hlog (by simp)
      · rw [hlog', List.append_cancel_left_eq] at hlog
        obtain rfl := List.singleton_inj.mp hlog
        obtain rfl := Option.some.inj (hi.symm.trans hn)
        rw [hg]
        exact hmove p l i g' x _ os hok hl hmoves hi hx hans ih

/-- What is observed of a step that adds one line to the log. -/
def sighted (π : Protocol S M G) (g₀ : R → G) (obs : W → G → Move S M → W → O)
    (p p' : Pool S M I W R T) : List O :=
  match p'.log.drop p.log.length with
  | [n] => (((p.ghosts π g₀)[n.task]?).map fun g => obs p.world g n.move p'.world).toList
  | _ => []

/-- Take the steps of a list, watching; `none` if one cannot be taken or is not `ok`. -/
def watch (m : Machine S M I W C V R T) (π : Protocol S M G) (g₀ : R → G)
    (ok : Pool S M I W R T → Label M C V R → Bool) (obs : W → G → Move S M → W → O) :
    Pool S M I W R T × List O → List (Label M C V R) → Option (Pool S M I W R T × List O)
  | q, [] => some q
  | (p, os), l :: ls =>
      if ok p l then
        (m.step p l).bind fun p' => watch m π g₀ ok obs (p', os ++ sighted π g₀ obs p p') ls
      else none

theorem step_log {p' : Pool S M I W R T} {l : Label M C V R} (h : m.step p l = some p') :
    p'.log = p.log ∨ ∃ n r t, p.tasks[n.task]? = some (r, t) ∧ p'.log = p.log ++ [n] := by
  obtain ⟨v, w, -, -, rfl⟩ | ⟨r, -, rfl⟩ | ⟨i, r, t, t', x, w, -, hi, -, -, rfl⟩ :=
    m.step_cases h
  · exact Or.inl rfl
  · exact Or.inl rfl
  · exact Or.inr ⟨⟨i, m.clock p.world, x⟩, r, t, hi, rfl⟩

/-- What a log begins with was the log of a state before. -/
theorem Reaches.log_prefix {before : List (Entry S M T)} (h₀ : p₀.log = [])
    (h : m.Reaches ok p₀ p) (hbefore : before <+: p.log) :
    ∃ q, m.Reaches ok p₀ q ∧ q.log = before := by
  induction h with
  | refl =>
      rw [h₀, List.prefix_nil] at hbefore
      exact ⟨p₀, .refl, h₀.trans hbefore.symm⟩
  | @step p p' l h hok hstep ih =>
      rcases step_log hstep with hsame | ⟨n, -, -, -, hlog⟩
      · exact ih (hsame ▸ hbefore)
      · rw [hlog, List.prefix_concat_iff] at hbefore
        rcases hbefore with rfl | hbefore
        · exact ⟨p', .step h hok hstep, hlog⟩
        · exact ih hbefore

/-- Watching a list of steps is watching a run. -/
theorem watch_observed {okb : Pool S M I W R T → Label M C V R → Bool} :
    ∀ (ls : List (Label M C V R)) {p : Pool S M I W R T} {os : List O}
      {q : Pool S M I W R T × List O},
      Observed m π g₀ (fun p l => okb p l = true) obs p₀ p os →
      watch m π g₀ okb obs (p, os) ls = some q →
      Observed m π g₀ (fun p l => okb p l = true) obs p₀ q.1 q.2 := by
  intro ls
  induction ls with
  | nil =>
      intro p os q h hwatch
      obtain rfl := Option.some.inj hwatch
      exact h
  | cons l ls ih =>
      intro p os q h hwatch
      rw [watch] at hwatch
      by_cases hok : okb p l = true
      · rw [if_pos hok, Option.bind_eq_some_iff] at hwatch
        obtain ⟨p', hstep, hrest⟩ := hwatch
        refine ih ?_ hrest
        unfold sighted
        rcases step_log hstep with hlog | ⟨n, r, t, hn, hlog⟩
        · rw [hlog, List.drop_length]
          simpa using Observed.quiet h hok hstep hlog
        · rw [hlog, List.drop_left]
          have hg := Pool.getElem?_ghosts π g₀ hn
          simp only [hg, Option.map_some, Option.toList_some]
          exact .move h hok hstep hg hlog
      · rw [if_neg hok] at hwatch
        cases hwatch

/-- Where a list of steps leads, and what is observed on the way. -/
def replay (m : Machine S M I W C V R T) (π : Protocol S M G) (g₀ : R → G)
    (ok : Pool S M I W R T → Label M C V R → Bool) (obs : W → G → Move S M → W → O)
    (p₀ : Pool S M I W R T) (ls : List (Label M C V R)) : Pool S M I W R T × List O :=
  (watch m π g₀ ok obs (p₀, []) ls).getD (p₀, [])

theorem replay_observed (okb : Pool S M I W R T → Label M C V R → Bool)
    (ls : List (Label M C V R)) :
    Observed m π g₀ (fun p l => okb p l = true) obs p₀ (replay m π g₀ okb obs p₀ ls).1
      (replay m π g₀ okb obs p₀ ls).2 := by
  unfold replay
  cases hwatch : watch m π g₀ okb obs (p₀, []) ls with
  | none => exact .refl
  | some q => exact watch_observed ls .refl hwatch

end Observed

end Machine

end Effects
