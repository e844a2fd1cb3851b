/-
Runs of one program by itself.

`Runs` says what a program may have done by the time it is looked at, whatever it was
answered: the answers stand for everything else there is, so a statement about all runs of
a program is one about all runs of all machines the program is part of.  `Runs.keeps` is
the bridge from `wp`.

`alone` runs a program in one environment, which answers each operation in one way.  Two
programs are compared by running both in the same environment.  `Comes` is for a world that
leaves answers open: what a program can come to when nothing else runs.
-/
import LlmGateway.Lib.Prog

namespace Effects

namespace Prog

variable {S : Sig} {M G σ : Type} {α β : Type}

/-! ### Under any answers -/

/-- What a program has done so far, and what is left of it. -/
inductive Runs : Prog S α → List (Move S M) → Prog S α → Prop
  | stop (p : Prog S α) : Runs p [] p
  | op {e : S.Op} {k : S.Ans e → Prog S α} {x : S.Ans e} {ms : List (Move S M)}
      {q : Prog S α} (h : Runs (k x) ms q) : Runs (.op e k) (.act e x :: ms) q

/-- What a program has returned, if it has come to its end. -/
def returned : Prog S α → Option α
  | .ret a => some a
  | .op _ _ => none

/-- What each allowed operation keeps, a run of a program keeps, and what is known of the
program is known of the rest of it. -/
theorem Runs.keeps {π : Protocol S M G} {p q : Prog S α} {ms : List (Move S M)} {g : G}
    {Q : α → G → Prop} {J : G → Prop} (h : p.Runs ms q) (hp : p.wp π g Q)
    (hJ : ∀ g e x, J g → π.ok g e → J (π.next g (.act e x))) (hg : J g) :
    J (π.run g ms) ∧ q.wp π (π.run g ms) Q := by
  induction h generalizing g with
  | stop p => exact ⟨hg, hp⟩
  | @op e k x ms q h ih => exact ih (hp.2 x) (hJ g e x hg hp.1)

/-! ### Programs that do only certain things -/

/-- Every operation the program can come to satisfies `P`. -/
def Only (P : S.Op → Prop) : Prog S α → Prop
  | .ret _ => True
  | .op e k => P e ∧ ∀ x, Only P (k x)

theorem Only.bind {P : S.Op → Prop} {p : Prog S α} {f : α → Prog S β} (hp : p.Only P)
    (hf : ∀ a, (f a).Only P) : (p.bind f).Only P := by
  induction p with
  | ret a => exact hf a
  | op e k ih => exact ⟨hp.1, fun x => ih x (hp.2 x)⟩

theorem Only.mono {P R : S.Op → Prop} {p : Prog S α} (hp : p.Only P) (hPR : ∀ e, P e → R e) :
    p.Only R := by
  induction p with
  | ret a => exact trivial
  | op e k ih => exact ⟨hPR e hp.1, fun x => ih x (hp.2 x)⟩

/-- Every operation the program can come to satisfies `P`, and everything it can return `Q`. -/
def Gives (P : S.Op → Prop) (Q : α → Prop) : Prog S α → Prop
  | .ret a => Q a
  | .op e k => P e ∧ ∀ x, Gives P Q (k x)

theorem Only.gives {P : S.Op → Prop} {p : Prog S α} (hp : p.Only P) :
    p.Gives P fun _ => True := by
  induction p with
  | ret a => exact trivial
  | op e k ih => exact ⟨hp.1, fun x => ih x (hp.2 x)⟩

/-- The rule for a call. -/
theorem Gives.call {P : S.Op → Prop} {R : α → Prop} {Q : β → Prop} {p : Prog S α}
    {f : α → Prog S β} (hp : p.Gives P R) (hf : ∀ a, R a → (f a).Gives P Q) :
    (p.bind f).Gives P Q := by
  induction p with
  | ret a => exact hf a hp
  | op e k ih => exact ⟨hp.1, fun x => ih x (hp.2 x)⟩

theorem Gives.mono {P : S.Op → Prop} {Q R : α → Prop} {p : Prog S α} (hp : p.Gives P Q)
    (hQR : ∀ a, Q a → R a) : p.Gives P R := by
  induction p with
  | ret a => exact hQR a hp
  | op e k ih => exact ⟨hp.1, fun x => ih x (hp.2 x)⟩

/-- What is allowed in every ghost. -/
theorem Gives.wp {π : Protocol S M G} {P : S.Op → Prop} {Q : α → Prop} {p : Prog S α} {g : G}
    (hp : p.Gives P Q) (hP : ∀ g e, P e → π.ok g e) : p.wp π g fun a _ => Q a := by
  induction p generalizing g with
  | ret a => exact hp
  | op e k ih => exact ⟨hP g e hp.1, fun x => ih x (hp.2 x)⟩

/-- What each of the operations keeps, the program keeps, and it returns what it gives. -/
theorem Gives.keeps {π : Protocol S M G} {P : S.Op → Prop} {Q : α → Prop} {J : G → Prop}
    {p : Prog S α} {g : G} (hp : p.Gives P Q)
    (hJ : ∀ g e, J g → P e → π.ok g e ∧ ∀ x, J (π.next g (.act e x))) (hg : J g) :
    p.wp π g fun a g' => Q a ∧ J g' := by
  induction p generalizing g with
  | ret a => exact ⟨hp, hg⟩
  | op e k ih =>
      obtain ⟨hok, hnext⟩ := hJ g e hg hp.1
      exact ⟨hok, fun x => ih x (hp.2 x) (hnext x)⟩

/-! ### Counting -/

/-- The automaton that counts two kinds of moves. -/
def tally (a b : Move S M → Bool) : Protocol S M (Nat × Nat) where
  ok _ _ := True
  next g m := (g.1 + (a m).toNat, g.2 + (b m).toNat)

theorem run_tally (a b : Move S M → Bool) (g : Nat × Nat) (ms : List (Move S M)) :
    (tally a b).run g ms = (g.1 + ms.countP a, g.2 + ms.countP b) := by
  induction ms generalizing g with
  | nil => rfl
  | cons m ms ih =>
      rw [Protocol.run_cons, ih]
      simp only [tally, List.countP_cons]
      cases a m <;> cases b m <;> simp <;> omega

/-! ### In one environment -/

/-- How an environment in state `s` answers an operation, and its state then. -/
abbrev Environment (S : Sig) (σ : Type) := σ → (e : S.Op) → S.Ans e × σ

variable (env : Environment S σ)

/-- The moves of a program in an environment, what it returns, and the environment after. -/
def alone : Prog S α → σ → List (Move S M) × α × σ
  | .ret a, s => ([], a, s)
  | .op e k, s =>
      let (x, s) := env s e
      let (ms, end_) := alone (k x) s
      (.act e x :: ms, end_)

@[simp] theorem alone_op (e : S.Op) (k : S.Ans e → Prog S α) (s : σ) :
    alone (M := M) env (.op e k) s
      = (.act e (env s e).1 :: (alone env (k (env s e).1) (env s e).2).1,
          (alone (M := M) env (k (env s e).1) (env s e).2).2) := rfl

theorem alone_bind (p : Prog S α) (f : α → Prog S β) (s : σ) :
    alone (M := M) env (p.bind f) s
      = ((alone env p s).1 ++ (alone env (f (alone (M := M) env p s).2.1)
            (alone (M := M) env p s).2.2).1,
          (alone (M := M) env (f (alone (M := M) env p s).2.1)
            (alone (M := M) env p s).2.2).2) := by
  induction p generalizing s with
  | ret a => rfl
  | op e k ih => simp only [op_bind, alone_op, ih, List.cons_append]

/-- What a program does in an environment is one of the things it can do. -/
theorem alone_runs (p : Prog S α) (s : σ) :
    p.Runs (alone (M := M) env p s).1 (.ret (alone (M := M) env p s).2.1) := by
  induction p generalizing s with
  | ret a => exact .stop _
  | op e k ih => exact .op (ih _ _)

/-- The moves of a program that does only certain things are those things. -/
theorem Only.alone {P : S.Op → Prop} {p : Prog S α} (hp : p.Only P) (s : σ) :
    ∀ m ∈ (alone (M := M) env p s).1, ∃ e x, m = .act e x ∧ P e := by
  induction p generalizing s with
  | ret a => exact fun m hm => absurd hm List.not_mem_nil
  | op e k ih =>
      intro m hm
      rcases List.mem_cons.mp hm with rfl | hm
      · exact ⟨e, _, rfl, hp.1⟩
      · exact ih _ (hp.2 _) _ m hm

/-! ### In a world of its own -/

section Comes

variable {W C : Type} {respond : W → (e : S.Op) → C → Option (S.Ans e × W)}

/-- With the world to itself, the program `p` comes from the world `w` to `q` in `w'`. -/
inductive Comes (respond : W → (e : S.Op) → C → Option (S.Ans e × W)) :
    W → Prog S α → W → Prog S α → Prop
  | here (w : W) (p : Prog S α) : Comes respond w p w p
  | step {w w₁ w' : W} {e : S.Op} {k : S.Ans e → Prog S α} {q : Prog S α} {c : C} {y : S.Ans e}
      (hr : respond w e c = some (y, w₁)) (h : Comes respond w₁ (k y) w' q) :
      Comes respond w (.op e k) w' q

theorem Comes.of_ret {w w' : W} {a : α} {q : Prog S α} (h : Comes respond w (.ret a) w' q) :
    w' = w ∧ q = .ret a := by
  cases h
  exact ⟨rfl, rfl⟩

/-- A program at an operation stays there, or takes an answer. -/
theorem Comes.of_op {w w' : W} {e : S.Op} {k : S.Ans e → Prog S α} {q : Prog S α}
    (h : Comes respond w (.op e k) w' q) :
    (w' = w ∧ q = .op e k) ∨
      ∃ c y w₁, respond w e c = some (y, w₁) ∧ Comes respond w₁ (k y) w' q := by
  cases h with
  | here => exact Or.inl ⟨rfl, rfl⟩
  | step hr h => exact Or.inr ⟨_, _, _, hr, h⟩

/-- One program after another. -/
theorem Comes.bind {w w₁ w' : W} {p : Prog S α} {f : α → Prog S β} {a : α} {q : Prog S β}
    (hp : Comes respond w p w₁ (.ret a)) (hf : Comes respond w₁ (f a) w' q) :
    Comes respond w (p.bind f) w' q := by
  induction p generalizing w with
  | ret b =>
      obtain ⟨rfl, hret⟩ := hp.of_ret
      obtain rfl := Prog.ret.inj hret
      exact hf
  | op e k ih =>
      rcases hp.of_op with ⟨-, hstay⟩ | ⟨c, y, w₂, hr, hrest⟩
      · cases hstay
      · exact .step hr (ih y hrest)

/-- What has come to its end came through the end of its first part. -/
theorem Comes.of_bind {w w' : W} {p : Prog S α} {f : α → Prog S β} {b : β}
    (h : Comes respond w (p.bind f) w' (.ret b)) :
    ∃ a w₁, Comes respond w p w₁ (.ret a) ∧ Comes respond w₁ (f a) w' (.ret b) := by
  induction p generalizing w with
  | ret a => exact ⟨a, w, .here w _, h⟩
  | op e k ih =>
      rcases Comes.of_op h with ⟨-, hstay⟩ | ⟨c, y, w₂, hr, hrest⟩
      · cases hstay
      · obtain ⟨a, w₁, hp, hf⟩ := ih y hrest
        exact ⟨a, w₁, .step hr hp, hf⟩

end Comes

end Prog

end Effects
