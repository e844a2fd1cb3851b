/-
Programs with effects, and the disciplines they follow.

A program either returns or performs one operation and continues with the answer.
What an operation *does* is no part of the program: `Lib/Machine.lean` runs many
programs at once over one shared world and supplies the answers there.

A protocol is an automaton over what a program does: `ok` says which operation may
come next, `next` moves the automaton's state — the ghost — along.  `wp π p g Q`
says that from ghost `g` the program `p` performs only what `π` allows, whatever the
answers, and that it returns in a ghost where `Q` holds.  It is computed by recursion
on the program, so proving it of a handler is running the handler symbolically; the
rules `wp_bind` and `wp_mono` are what a proof about a loop needs.
-/
import Mathlib.Logic.Basic

namespace Effects

/-- The operations a program may perform, and what each of them answers. -/
structure Sig where
  Op : Type
  Ans : Op → Type

/-- A program: return, or perform one operation and continue with its answer. -/
inductive Prog (S : Sig) (α : Type) : Type
  | ret (a : α) : Prog S α
  | op (e : S.Op) (k : S.Ans e → Prog S α) : Prog S α

/-- One thing that happens to a running program: it performs an operation, it is
polled with an item while idle, or it is dropped. -/
inductive Move (S : Sig) (M : Type) : Type
  | act (e : S.Op) (x : S.Ans e) : Move S M
  | poll (m : M) : Move S M
  | drop : Move S M

namespace Prog

variable {S : Sig} {α β γ : Type}

/-- Run the first program, then the second on what it returned. -/
def bind : Prog S α → (α → Prog S β) → Prog S β
  | .ret a, f => f a
  | .op e k, f => .op e fun x => bind (k x) f

instance : Monad (Prog S) where
  pure := .ret
  bind := bind

@[simp] theorem pure_eq (a : α) : (pure a : Prog S α) = .ret a := rfl

@[simp] theorem bind_eq (p : Prog S α) (f : α → Prog S β) : (p >>= f) = p.bind f := rfl

@[simp] theorem ret_bind (a : α) (f : α → Prog S β) : (ret a : Prog S α).bind f = f a := rfl

@[simp] theorem op_bind (e : S.Op) (k : S.Ans e → Prog S α) (f : α → Prog S β) :
    (op e k).bind f = op e fun x => (k x).bind f := rfl

@[simp] theorem bind_ret (p : Prog S α) : p.bind .ret = p := by
  induction p with
  | ret a => rfl
  | op e k ih => simp only [op_bind, ih]

@[simp] theorem bind_assoc (p : Prog S α) (f : α → Prog S β) (g : β → Prog S γ) :
    (p.bind f).bind g = p.bind fun a => (f a).bind g := by
  induction p with
  | ret a => rfl
  | op e k ih => simp only [op_bind, ih]

end Prog

/-! ### Protocols -/

/-- An automaton over the moves of one program. -/
structure Protocol (S : Sig) (M G : Type) where
  /-- The operations the program may perform in a ghost. -/
  ok : G → S.Op → Prop
  /-- How a move changes the ghost. -/
  next : G → Move S M → G

namespace Protocol

variable {S : Sig} {M G : Type} (π : Protocol S M G)

/-- The ghost after a list of moves. -/
def run (g : G) (ms : List (Move S M)) : G := ms.foldl π.next g

@[simp] theorem run_nil (g : G) : π.run g [] = g := rfl

@[simp] theorem run_cons (g : G) (m : Move S M) (ms : List (Move S M)) :
    π.run g (m :: ms) = π.run (π.next g m) ms := rfl

@[simp] theorem run_append (g : G) (ms ns : List (Move S M)) :
    π.run g (ms ++ ns) = π.run (π.run g ms) ns := List.foldl_append

/-- Every operation of the list is one the protocol allows at its place. -/
def Obeys (g : G) : List (Move S M) → Prop
  | [] => True
  | .act e x :: ms => π.ok g e ∧ Obeys (π.next g (.act e x)) ms
  | m :: ms => Obeys (π.next g m) ms

@[simp] theorem obeys_nil (g : G) : π.Obeys g [] := trivial

@[simp] theorem obeys_act (g : G) (e : S.Op) (x : S.Ans e) (ms : List (Move S M)) :
    π.Obeys g (.act e x :: ms) ↔ π.ok g e ∧ π.Obeys (π.next g (.act e x)) ms := Iff.rfl

@[simp] theorem obeys_poll (g : G) (m : M) (ms : List (Move S M)) :
    π.Obeys g (.poll m :: ms) ↔ π.Obeys (π.next g (.poll m)) ms := Iff.rfl

@[simp] theorem obeys_drop (g : G) (ms : List (Move S M)) :
    π.Obeys g (.drop :: ms) ↔ π.Obeys (π.next g .drop) ms := Iff.rfl

theorem obeys_append {g : G} {ms ns : List (Move S M)} :
    π.Obeys g (ms ++ ns) ↔ π.Obeys g ms ∧ π.Obeys (π.run g ms) ns := by
  induction ms generalizing g with
  | nil => simp
  | cons m ms ih => cases m <;> simp [ih, and_assoc]

end Protocol

namespace Prog

variable {S : Sig} {M G : Type} {α β : Type} {π : Protocol S M G}

/-- From ghost `g` the program performs only what `π` allows, and returns where `Q` holds. -/
def wp (π : Protocol S M G) : Prog S α → G → (α → G → Prop) → Prop
  | .ret a, g, Q => Q a g
  | .op e k, g, Q => π.ok g e ∧ ∀ x, wp π (k x) (π.next g (.act e x)) Q

@[simp] theorem wp_ret (a : α) (g : G) (Q : α → G → Prop) :
    wp π (.ret a) g Q ↔ Q a g := Iff.rfl

@[simp] theorem wp_op (e : S.Op) (k : S.Ans e → Prog S α) (g : G) (Q : α → G → Prop) :
    wp π (.op e k) g Q ↔ π.ok g e ∧ ∀ x, wp π (k x) (π.next g (.act e x)) Q := Iff.rfl

theorem wp_bind (p : Prog S α) (f : α → Prog S β) (g : G) (Q : β → G → Prop) :
    wp π (p.bind f) g Q ↔ wp π p g fun a g' => wp π (f a) g' Q := by
  induction p generalizing g with
  | ret a => rfl
  | op e k ih => simp [bind, ih]

theorem wp_mono {p : Prog S α} {g : G} {Q Q' : α → G → Prop} (h : wp π p g Q)
    (hQ : ∀ a g', Q a g' → Q' a g') : wp π p g Q' := by
  induction p generalizing g with
  | ret a => exact hQ a g h
  | op e k ih => exact ⟨h.1, fun x => ih x (h.2 x)⟩

/-- The rule for a call: what is known of the callee, then the rest from there. -/
theorem wp_call {p : Prog S α} {f : α → Prog S β} {g : G} {R : α → G → Prop}
    {Q : β → G → Prop} (hp : wp π p g R) (hf : ∀ a g', R a g' → wp π (f a) g' Q) :
    wp π (p.bind f) g Q :=
  (wp_bind p f g Q).mpr (wp_mono hp hf)

end Prog

end Effects
