/-
Programs that keep to a script.

A script cuts a program at the operations whose answers decide how it goes on.  A `Cue` is what
has still to be done, whatever it is answered, and the cut the program comes to then; `react` is
the cue that each answer at a cut gives.  That a program keeps to a script is a protocol like any
other, and showing it is running the program symbolically.

It is the only time.  For any other protocol an invariant of the cuts is enough: `Upholds` says
that it survives each answer and what is done then, and `wp_of_script` that the program keeps the
protocol.  When the program changes, its script does, and no protocol has to be gone through that
does not care.
-/
import LlmGateway.Lib.Prog

namespace Effects

/-- What is still to be done, in order, and where the program is then. -/
structure Cue (S : Sig) (K : Type) where
  todo : List S.Op
  cut : K

/-- The same cue with more to be done before. -/
def Cue.after {S : Sig} {K : Type} (es : List S.Op) (c : Cue S K) : Cue S K :=
  { c with todo := es ++ c.todo }

/-- What a program asks at its cuts, and what it does with the answers. -/
structure Script (S : Sig) (K : Type) where
  asks : K → S.Op → Prop
  react : K → (e : S.Op) → S.Ans e → Cue S K

namespace Protocol

variable {S : Sig} {M G K : Type} (π : Protocol S M G)

/-- The operations are allowed one after the other, and `Q` holds then, whatever the answers. -/
def Does : List S.Op → G → (G → Prop) → Prop
  | [], g, Q => Q g
  | e :: es, g, Q => π.ok g e ∧ ∀ x, Does es (π.next g (.act e x)) Q

@[simp] theorem does_nil (g : G) (Q : G → Prop) : π.Does [] g Q ↔ Q g := Iff.rfl

@[simp] theorem does_cons (e : S.Op) (es : List S.Op) (g : G) (Q : G → Prop) :
    π.Does (e :: es) g Q ↔ π.ok g e ∧ ∀ x, π.Does es (π.next g (.act e x)) Q := Iff.rfl

theorem does_append (es fs : List S.Op) (g : G) (Q : G → Prop) :
    π.Does (es ++ fs) g Q ↔ π.Does es g fun g' => π.Does fs g' Q := by
  induction es generalizing g with
  | nil => rfl
  | cons e es ih => simp only [List.cons_append, does_cons, ih]

variable {π}

theorem Does.mono {es : List S.Op} {g : G} {Q Q' : G → Prop} (h : π.Does es g Q)
    (hQ : ∀ g', Q g' → Q' g') : π.Does es g Q' := by
  induction es generalizing g with
  | nil => exact hQ g h
  | cons e es ih => exact ⟨h.1, fun x => ih (h.2 x)⟩

/-- What each of the operations keeps, the list keeps. -/
theorem does_of_forall {es : List S.Op} {g : G} {J : G → Prop}
    (h : ∀ e ∈ es, ∀ g, J g → π.ok g e ∧ ∀ x, J (π.next g (.act e x))) (hg : J g) :
    π.Does es g J := by
  induction es generalizing g with
  | nil => exact hg
  | cons e es ih =>
      obtain ⟨hok, hnext⟩ := h e List.mem_cons_self g hg
      exact ⟨hok, fun x => ih (fun e' he' => h e' (List.mem_cons_of_mem _ he')) (hnext x)⟩

/-- Where the ghost of another protocol can be read off, what that one says of a list holds, too. -/
theorem Does.and_image {H : Type} {π' : Protocol S M H} {f : G → H}
    (hf : ∀ g m, f (π.next g m) = π'.next (f g) m) {es : List S.Op} {g : G} {Q : G → Prop}
    {R : H → Prop} (h : π.Does es g Q) (h' : π'.Does es (f g) R) :
    π.Does es g fun g' => Q g' ∧ R (f g') := by
  induction es generalizing g with
  | nil => exact ⟨h, h'⟩
  | cons e es ih =>
      refine ⟨h.1, fun x => ih (h.2 x) ?_⟩
      rw [hf]
      exact h'.2 x

variable (π)

/-- What is to be done is allowed, and the invariant holds at the cut that comes then. -/
def Meets (J : K → G → Prop) (c : Cue S K) (g : G) : Prop := π.Does c.todo g (J c.cut)

variable {J : K → G → Prop} {c : Cue S K} {g : G}

@[simp] theorem meets_now (k : K) : π.Meets J ⟨[], k⟩ g ↔ J k g := Iff.rfl

theorem meets_after (es : List S.Op) :
    π.Meets J (c.after es) g ↔ π.Does es g (π.Meets J c) :=
  π.does_append es c.todo g _

end Protocol

namespace Script

variable {S : Sig} {M G K : Type} (σ : Script S K)

/-- The script as a protocol: what is to be done is done, and then the cut is asked. -/
def protocol : Protocol S M (Cue S K) where
  ok c e :=
    match c.todo with
    | [] => σ.asks c.cut e
    | e' :: _ => e = e'
  next c m :=
    match c.todo, m with
    | [], .act e x => σ.react c.cut e x
    | _ :: rest, .act _ _ => ⟨rest, c.cut⟩
    | _, _ => c

/-- An invariant of the cuts of which `I` is known. -/
def Upholds (π : Protocol S M G) (I : K → Prop) (J : K → G → Prop) : Prop :=
  ∀ k g e, I k → J k g → σ.asks k e →
    π.ok g e ∧ ∀ x, π.Meets J (σ.react k e x) (π.next g (.act e x))

/-- What every reaction keeps. -/
def Stable (I : K → Prop) : Prop := ∀ k e x, I k → σ.asks k e → I (σ.react k e x).cut

variable {σ} {α : Type} {π : Protocol S M G} {I : K → Prop} {J : K → G → Prop}

/-- **A program that keeps to a script keeps every protocol with an invariant of its cuts.** -/
theorem wp_of_script (hI : σ.Stable I) (hJ : σ.Upholds π I J) {p : Prog S α} {c : Cue S K} {g : G}
    {Q : α → K → Prop}
    (hp : p.wp (σ.protocol : Protocol S M (Cue S K)) c fun a c' => c'.todo = [] ∧ Q a c'.cut)
    (hc : I c.cut) (hg : π.Meets J c g) : p.wp π g fun a g' => ∃ k, Q a k ∧ J k g' := by
  induction p generalizing c g with
  | ret a =>
      obtain ⟨todo, cut⟩ := c
      obtain ⟨rfl, hQ⟩ : todo = [] ∧ Q a cut := hp
      exact ⟨cut, hQ, hg⟩
  | op e k ih =>
      obtain ⟨todo, cut⟩ := c
      obtain ⟨hok, hrest⟩ := hp
      cases todo with
      | nil =>
          have hasks : σ.asks cut e := hok
          obtain ⟨hallowed, hnext⟩ := hJ cut g e hc hg hasks
          exact ⟨hallowed, fun x => ih x (hrest x) (hI cut e x hc hasks) (hnext x)⟩
      | cons e' rest =>
          obtain rfl : e = e' := hok
          exact ⟨hg.1, fun x => ih x (hrest x) hc (hg.2 x)⟩

end Script

end Effects
