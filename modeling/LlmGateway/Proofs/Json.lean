/-
What the JSON writer can and cannot write.

Two facts about its text are needed.  Strings are written in a prefix code, so that the
text of a member determines its key and where the value begins; `unescape` is the reader
that shows it.  And no text contains a NUL: the escapes keep control characters out of
strings, and nothing else writes characters of the input.
-/
import LlmGateway.Json
import LlmGateway.Proofs.Rust

namespace LlmGateway

/-! ### Reading a string back -/

/-- The value of a hexadecimal digit. -/
def hexValue (c : Char) : Nat :=
  if c.toNat < 58 then c.toNat - 48 else c.toNat - 87

/-- The character after a backslash, other than `u`. -/
def unescapeNamed (c : Char) : Char :=
  if c = 'b' then '\x08'
  else if c = 'f' then '\x0c'
  else if c = 'n' then '\n'
  else if c = 'r' then '\r'
  else if c = 't' then '\t'
  else c

/-- Read one character of a quoted string. -/
def unescape : List Char → Option (Char × List Char)
  | [] => none
  | c :: rest =>
      if c = '\\' then
        match rest with
        | 'u' :: _ :: _ :: a :: b :: rest =>
            some (Char.ofNat (hexValue a * 16 + hexValue b), rest)
        | e :: rest => some (unescapeNamed e, rest)
        | [] => none
      else some (c, rest)

theorem hexValue_digits {n : Nat} (h : n < 32) :
    hexValue (Nat.digitChar (n / 16)) * 16 + hexValue (Nat.digitChar (n % 16)) = n := by
  have hall : ∀ n : Fin 32,
      hexValue (Nat.digitChar (n / 16)) * 16 + hexValue (Nat.digitChar (n % 16)) = n := by
    decide
  exact hall ⟨n, h⟩

/-- What is written for a character is read back as it. -/
theorem unescape_escapeChar (c : Char) (rest : List Char) :
    unescape (escapeChar c ++ rest) = some (c, rest) := by
  unfold escapeChar
  by_cases hquote : c = '"'
  · subst hquote; rfl
  by_cases hslash : c = '\\'
  · subst hslash; rfl
  by_cases hb : c = '\x08'
  · subst hb; rfl
  by_cases hf : c = '\x0c'
  · subst hf; rfl
  by_cases hn : c = '\n'
  · subst hn; rfl
  by_cases hr : c = '\r'
  · subst hr; rfl
  by_cases ht : c = '\t'
  · subst ht; rfl
  rw [if_neg hquote, if_neg hslash, if_neg hb, if_neg hf, if_neg hn, if_neg hr, if_neg ht]
  by_cases hcontrol : c.toNat < 0x20
  · rw [if_pos hcontrol]
    show some (Char.ofNat _, rest) = some (c, rest)
    rw [hexValue_digits hcontrol, Char.ofNat_toNat]
  · rw [if_neg hcontrol]
    show (if c = '\\' then _ else _) = _
    rw [if_neg hslash]
    rfl

/-- No character is written with a leading quote. -/
theorem escapeChar_head (c : Char) : ∃ d ds, escapeChar c = d :: ds ∧ d ≠ '"' := by
  unfold escapeChar
  by_cases hquote : c = '"'
  · rw [if_pos hquote]
    exact ⟨_, _, rfl, by decide⟩
  rw [if_neg hquote]
  repeat' split
  all_goals first | exact ⟨_, _, rfl, by decide⟩ | exact ⟨_, _, rfl, hquote⟩

theorem escaped_cancel : ∀ {cs cs' rest rest' : List Char},
    cs.flatMap escapeChar ++ '"' :: rest = cs'.flatMap escapeChar ++ '"' :: rest' →
      cs = cs' ∧ rest = rest'
  | [], [], _, _, h => ⟨rfl, (List.cons.inj h).2⟩
  | [], c :: cs', rest, rest', h => by
      obtain ⟨d, ds, hd, hne⟩ := escapeChar_head c
      rw [List.flatMap_cons, hd] at h
      exact absurd (List.cons.inj h).1.symm hne
  | c :: cs, [], rest, rest', h => by
      obtain ⟨d, ds, hd, hne⟩ := escapeChar_head c
      rw [List.flatMap_cons, hd] at h
      exact absurd (List.cons.inj h).1 hne
  | c :: cs, c' :: cs', rest, rest', h => by
      rw [List.flatMap_cons, List.flatMap_cons, List.append_assoc, List.append_assoc] at h
      have hread := congrArg unescape h
      rw [unescape_escapeChar, unescape_escapeChar] at hread
      obtain ⟨rfl, htail⟩ := Prod.mk.inj (Option.some.inj hread)
      obtain ⟨rfl, hrest⟩ := escaped_cancel htail
      exact ⟨rfl, hrest⟩

/-- **A quoted string determines the string and where it ends.** -/
theorem quote_cancel {s s' : String} {rest rest' : List Char}
    (h : quote s ++ rest = quote s' ++ rest') : s = s' ∧ rest = rest' := by
  unfold quote at h
  simp only [List.cons_append, List.append_assoc, List.nil_append, List.cons.injEq,
    true_and] at h
  obtain ⟨hs, hrest⟩ := escaped_cancel h
  exact ⟨String.toList_inj.mp hs, hrest⟩

/-! ### No NUL -/

/-- A text without the NUL character. -/
def NulFree (l : List Char) : Prop := '\x00' ∉ l

instance (l : List Char) : Decidable (NulFree l) := inferInstanceAs (Decidable (¬ _))

theorem NulFree.append {l l' : List Char} (h : NulFree l) (h' : NulFree l') :
    NulFree (l ++ l') := by
  unfold NulFree at *
  simp [h, h']

theorem NulFree.cons {c : Char} {l : List Char} (hc : c ≠ '\x00') (h : NulFree l) :
    NulFree (c :: l) := by
  unfold NulFree at *
  simp [hc.symm, h]

theorem NulFree.flatMap {α : Type} {l : List α} {f : α → List Char}
    (h : ∀ a ∈ l, NulFree (f a)) : NulFree (l.flatMap f) := by
  intro hmem
  obtain ⟨a, ha, hin⟩ := List.mem_flatMap.mp hmem
  exact h a ha hin

/-- A text made of these characters has no NUL. -/
theorem NulFree.of_alphabet {l alphabet : List Char} (h : ∀ c ∈ l, c ∈ alphabet)
    (halpha : NulFree alphabet) : NulFree l :=
  fun hmem => halpha (h _ hmem)

theorem digitChar_ne_nul (n : Nat) (h : n < 16) : Nat.digitChar n ≠ '\x00' := by
  have hall : ∀ n : Fin 16, Nat.digitChar n ≠ '\x00' := by decide
  exact hall ⟨n, h⟩

theorem nulFree_escapeChar (c : Char) : NulFree (escapeChar c) := by
  unfold escapeChar
  by_cases hcontrol : c.toNat < 0x20
  · have hhigh := digitChar_ne_nul (c.toNat / 16) (by omega)
    have hlow := digitChar_ne_nul (c.toNat % 16) (by omega)
    unfold NulFree
    rw [if_pos hcontrol]
    repeat' split
    all_goals simp [hhigh.symm, hlow.symm]
  · have hne : c ≠ '\x00' := by
      intro hc
      rw [hc] at hcontrol
      exact hcontrol (by decide)
    unfold NulFree
    rw [if_neg hcontrol]
    repeat' split
    all_goals simp [hne.symm]

theorem nulFree_quote (s : String) : NulFree (quote s) :=
  .cons (by decide) ((NulFree.flatMap fun c _ => nulFree_escapeChar c).append (by decide))

theorem nulFree_digits (n : Nat) : NulFree (Nat.toDigits 10 n) := by
  intro hmem
  exact absurd (Nat.isDigit_of_mem_toDigits (by decide) (by decide) hmem) (by decide)

theorem nulFree_intText (n : Int) : NulFree (intText n) := by
  unfold intText
  by_cases h : n < 0
  · rw [if_pos h]
    exact .cons (by decide) (nulFree_digits _)
  · rw [if_neg h]
    exact nulFree_digits _

theorem nulFree_boolText (b : Bool) : NulFree (boolText b) := by
  cases b <;> decide

theorem nulFree_commaSep {l : List (List Char)} (h : ∀ t ∈ l, NulFree t) :
    NulFree (commaSep l) := by
  cases l with
  | nil => decide
  | cons t ts =>
      refine (h t (by simp)).append (NulFree.flatMap fun u hu => ?_)
      exact .cons (by decide) (h u (by simp [hu]))

theorem nulFree_arrayText {l : List (List Char)} (h : ∀ t ∈ l, NulFree t) :
    NulFree (arrayText l) :=
  .cons (by decide) ((nulFree_commaSep h).append (by decide))

theorem nulFree_memberText (key : String) {t : List Char} (h : NulFree t) :
    NulFree (memberText key t) :=
  (nulFree_quote key).append (.cons (by decide) h)

/-- Members whose values contain no NUL. -/
def NulFreeMembers (ms : List (String × List Char)) : Prop := ∀ m ∈ ms, NulFree m.2

theorem nulFree_objectText {ms : List (String × List Char)} (h : NulFreeMembers ms) :
    NulFree (objectText ms) := by
  refine .cons (by decide) (NulFree.append (nulFree_commaSep ?_) (by decide))
  intro t ht
  obtain ⟨m, hm, rfl⟩ := List.mem_map.mp ht
  exact nulFree_memberText m.1 (h m hm)

theorem Number.nulFree_json (ryu : Ryu) (n : Number) : NulFree (n.json ryu) := by
  cases n with
  | posInt n => exact nulFree_digits _
  | negInt n neg => exact nulFree_intText _
  | float bits => exact .of_alphabet (ryu.f64_chars bits) (by decide)

mutual
/-- **The text of a JSON value contains no NUL**, whatever its strings contain. -/
theorem Value.nulFree_json (ryu : Ryu) : (v : Value) → NulFree (v.json ryu)
  | .null => by rw [Value.json]; decide
  | .bool b => by rw [Value.json]; exact nulFree_boolText b
  | .number n => by rw [Value.json]; exact n.nulFree_json ryu
  | .string s => by rw [Value.json]; exact nulFree_quote s
  | .array elems => by rw [Value.json]; exact nulFree_arrayText (Value.nulFree_jsons ryu elems)
  | .object entries => by
      rw [Value.json]; exact nulFree_objectText (Value.nulFree_entryJsons ryu entries)

theorem Value.nulFree_jsons (ryu : Ryu) :
    (vs : List Value) → ∀ t ∈ Value.jsons ryu vs, NulFree t
  | [] => by simp [Value.jsons]
  | v :: vs => by
      intro t ht
      rw [Value.jsons, List.mem_cons] at ht
      rcases ht with rfl | ht
      · exact Value.nulFree_json ryu v
      · exact Value.nulFree_jsons ryu vs t ht

theorem Value.nulFree_entryJsons (ryu : Ryu) :
    (es : List (String × Value)) → NulFreeMembers (Value.entryJsons ryu es)
  | [] => by simp [Value.entryJsons, NulFreeMembers]
  | (k, v) :: es => by
      intro m hm
      rw [Value.entryJsons, List.mem_cons] at hm
      rcases hm with rfl | hm
      · exact Value.nulFree_json ryu v
      · exact Value.nulFree_entryJsons ryu es m hm
end

end LlmGateway
