import Mathlib.Data.List.Basic
import Mathlib.Tactic.IntervalCases
import PrefixPattern.Proofs.Json.Reader

/-!
# Printed values can be read

Reading takes two steps, and so does the proof.  The text of a value is cut into its tokens whatever
stands behind it, and tokens of a value are read as the value whatever containers are open around
it.  Both go by the shape of the value, with the items of an array and the fields of an object
behind the first one taken along as lists.

Only a number needs to know what stands behind it, since one more digit would make it longer.  In a
printed text that is always a comma or a new line.

## What is here

* `Json.string?_escapeChar` — the spelling of a character inside quotes is read as the character.
* `Json.natural?_toDigits` — the digits of a number are read as the number.
* `Json.tokens` — the tokens of a value, in the order of its text.
* `Json.tokens?_render`, `Json.value?_tokens` — the two steps of reading.
* `Json.read?_line` — both together, for a value that is printed on a line.
-/

set_option autoImplicit false

namespace PrefixPattern
namespace Json

open Toml (hexNumber? charOf?)

/-! ## Strings -/

/-- The digits of a control character behind two zeros. -/
theorem hexNumber?_control {n : Nat} (h : n < 32) :
    hexNumber? ['0', '0', hexDigit (n / 16), hexDigit (n % 16)] = some n := by
  decide +revert

theorem charOf?_toNat (c : Char) : charOf? c.toNat = some c := by
  have hvalid : c.toNat < 0xd800 ∨ (0xdfff < c.toNat ∧ c.toNat < 0x110000) := c.valid
  rw [charOf?, if_pos hvalid, Char.ofNat_toNat]

theorem string?_control {c : Char} (h : c.toNat < 32) (done cs : List Char) :
    string? none done ('\\' :: 'u' :: '0' :: '0' :: hexDigit (c.toNat / 16) ::
      hexDigit (c.toNat % 16) :: cs) = string? none (c :: done) cs := by
  have hwhole : ¬(0xd800 ≤ c.toNat ∧ c.toNat < 0xdc00) := by omega
  rw [string?, if_neg hwhole, charOf?_toNat]
  exact hexNumber?_control h

theorem string?_plain {c : Char} (hquote : c ≠ '"') (hback : c ≠ '\\') (h : ¬c.toNat < 32)
    (done cs : List Char) : string? none done (c :: cs) = string? none (c :: done) cs := by
  have hplain : ¬(c.toNat < 32 ∨ c = '\\') := not_or.2 ⟨h, hback⟩
  rw [string?, if_neg hplain]
  all_goals grind

/-- The spelling of a character is read as the character. -/
theorem string?_escapeChar (c : Char) (done cs : List Char) :
    string? none done (escapeChar c ++ cs) = string? none (c :: done) cs := by
  rw [escapeChar]
  split_ifs with hquote hback hb hf hn hr ht hcontrol
  -- the last two cases are no escapes of one letter
  on_goal 9 => exact string?_plain hquote hback hcontrol done cs
  on_goal 8 => exact string?_control hcontrol done cs
  all_goals
    subst c
    simp [string?, letterEscape?]

theorem string?_flatMap (text done cs : List Char) :
    string? none done (text.flatMap escapeChar ++ '"' :: cs) =
      some (String.ofList (done.reverse ++ text), cs) := by
  induction text generalizing done with
  | nil => simp [string?]
  | cons c text ih =>
    rw [List.flatMap_cons, List.append_assoc, string?_escapeChar, ih, List.reverse_cons,
      List.append_assoc, List.singleton_append]

/-- A string between its quotes is one token. -/
theorem token?_quote (s : String) (cs : List Char) :
    token? (quote s ++ cs) = some (.value (str s), cs) := by
  rw [quote, List.append_assoc, List.cons_append, List.singleton_append, token?, string?_flatMap]
  simp

/-! ## Numbers -/

/-- No digit comes first. -/
def Apart (cs : List Char) : Prop :=
  ∀ c ∈ cs.head?, c.isDigit = false

theorem Apart.takeWhile {cs : List Char} (h : Apart cs) : cs.takeWhile Char.isDigit = [] := by
  cases cs with
  | nil => rfl
  | cons c cs => rw [List.takeWhile_cons_of_neg (by simp [h c rfl])]

theorem Apart.dropWhile {cs : List Char} (h : Apart cs) : cs.dropWhile Char.isDigit = cs := by
  cases cs with
  | nil => rfl
  | cons c cs => rw [List.dropWhile_cons_of_neg (by simp [h c rfl])]

/-- There is no zero in front of other digits. -/
theorem head?_toDigits {n : Nat} (h : 0 < n) : (Nat.toDigits 10 n).head? ≠ some '0' := by
  induction n using Nat.strongRecOn with
  | ind n ih =>
    rw [Nat.toDigits_eq_if (by decide)]
    split
    · interval_cases n <;> decide
    · have hsmaller : 0 < n / 10 := by omega
      rw [List.head?_append_of_ne_nil _ Nat.toDigits_ne_nil]
      exact ih (n / 10) (by omega) hsmaller

/-- The digits of a number are read as the number. -/
theorem natural?_toDigits (n : Nat) {cs : List Char} (h : Apart cs) :
    natural? (Nat.toDigits 10 n ++ cs) = some (n, cs) := by
  have hdigits : ∀ c ∈ Nat.toDigits 10 n, c.isDigit = true := fun c hc =>
    Nat.isDigit_of_mem_toDigits (by decide) (by decide) hc
  have htake : (Nat.toDigits 10 n ++ cs).takeWhile Char.isDigit = Nat.toDigits 10 n := by
    rw [List.takeWhile_append_of_pos hdigits, h.takeWhile, List.append_nil]
  have hdrop : (Nat.toDigits 10 n ++ cs).dropWhile Char.isDigit = cs := by
    rw [List.dropWhile_append_of_pos hdigits, h.dropWhile]
  have hfirst : ¬(Nat.toDigits 10 n = [] ∨
      ((Nat.toDigits 10 n).head? = some '0' ∧ Nat.toDigits 10 n ≠ ['0'])) := by
    rintro (hnil | ⟨hhead, hmore⟩)
    · exact Nat.toDigits_ne_nil hnil
    · rcases Nat.eq_zero_or_pos n with rfl | hpos
      · exact hmore rfl
      · exact head?_toDigits hpos hhead
  simp only [natural?, htake, hdrop, if_neg hfirst, Nat.ofDigitChars_ten_toDigits]

theorem token?_natural (n : Nat) {cs : List Char} (h : Apart cs) :
    token? (Nat.toDigits 10 n ++ cs) = some (.value (num n), cs) := by
  have hread := natural?_toDigits n h
  rcases hdigits : Nat.toDigits 10 n with _ | ⟨c, digits⟩
  · exact absurd hdigits Nat.toDigits_ne_nil
  · have hc : c.isDigit = true :=
      Nat.isDigit_of_mem_toDigits (by decide) (by decide) (hdigits ▸ List.mem_cons_self)
    rw [hdigits] at hread
    rw [List.cons_append, token?, ← List.cons_append, hread]
    · rfl
    -- no other token begins with a digit
    all_goals
      intro cs' heq
      obtain rfl := List.head_eq_of_cons_eq heq
      exact absurd hc (by decide)

theorem token?_num (n : Int) {cs : List Char} (h : Apart cs) :
    token? ((toString n).toList ++ cs) = some (.value (num n), cs) := by
  rcases n with n | n
  · show token? ((Nat.repr n).toList ++ cs) = _
    rw [Nat.repr_eq_ofList_toDigits, String.toList_ofList]
    exact token?_natural n h
  · show token? (("-" ++ Nat.repr (n + 1)).toList ++ cs) = _
    rw [Nat.repr_eq_ofList_toDigits, String.toList_append, String.toList_ofList,
      String.toList_ofList, List.singleton_append, List.cons_append, token?,
      natural?_toDigits _ h]
    rfl

/-! ## The tokens of a value -/

mutual

/-- The tokens that a value is written with. -/
def tokens : Json → List Token
  | null => [.value null]
  | bool b => [.value (bool b)]
  | num n => [.value (num n)]
  | str s => [.value (str s)]
  | arr [] => [.openArr, .closeArr]
  | arr (v :: rest) => .openArr :: (tokens v ++ itemTokens rest ++ [.closeArr])
  | obj [] => [.openObj, .closeObj]
  | obj ((name, v) :: rest) =>
    .openObj :: .value (str name) :: .colon :: (tokens v ++ fieldTokens rest ++ [.closeObj])

/-- The tokens of the items of an array behind its first one. -/
def itemTokens : List Json → List Token
  | [] => []
  | v :: rest => .comma :: (tokens v ++ itemTokens rest)

/-- The tokens of the fields of an object behind its first one. -/
def fieldTokens : List (String × Json) → List Token
  | [] => []
  | (name, v) :: rest =>
    .comma :: .value (str name) :: .colon :: (tokens v ++ fieldTokens rest)

end

/-! ## The text of a value -/

theorem token?_blank {c : Char} (h : isBlank c = true) (cs : List Char) :
    token? (c :: cs) = none := by
  have hblank : c = ' ' ∨ c = '\t' ∨ c = '\n' ∨ c = '\x0d' := by
    simpa [isBlank, or_assoc] using h
  rcases hblank with rfl | rfl | rfl | rfl
  all_goals rfl

/-- Tokens are read one after the other. -/
theorem tokens?_cons {cs rest : List Char} {t : Token} {ts : List Token}
    (h : token? cs = some (t, rest)) (hrest : tokens? rest = some ts) :
    tokens? cs = some (t :: ts) := by
  rcases cs with _ | ⟨c, cs⟩
  · exact absurd h (by simp [token?, natural?])
  · have hblank : ¬isBlank c = true := by
      intro hc
      rw [token?_blank hc] at h
      exact absurd h (by simp)
    rw [tokens?, if_neg hblank]
    split
    · rename_i t' rest' heq
      obtain ⟨rfl, rfl⟩ := Prod.mk.inj (Option.some.inj (heq.symm.trans h))
      rw [hrest, Option.map_some]
    · rename_i heq
      exact absurd (heq.symm.trans h) (by simp)

theorem tokens?_blank {c : Char} (h : isBlank c = true) (cs : List Char) :
    tokens? (c :: cs) = tokens? cs := by
  rw [tokens?, if_pos h]

theorem tokens?_newline (depth : Nat) (cs : List Char) :
    tokens? (newline depth ++ cs) = tokens? cs := by
  rw [newline, List.cons_append, tokens?_blank rfl]
  induction 2 * depth with
  | zero => rfl
  | succ n ih => rw [List.replicate_succ, List.cons_append, tokens?_blank rfl, ih]

/-- The name of a field and the colon behind it. -/
theorem tokens?_name {name : String} {cs : List Char} {ts : List Token}
    (h : tokens? cs = some ts) :
    tokens? (quote name ++ ':' :: ' ' :: cs) = some (.value (str name) :: .colon :: ts) := by
  refine tokens?_cons (token?_quote name _) (tokens?_cons (by rw [token?]) ?_)
  rw [tokens?_blank rfl, h]

theorem apart_newline (depth : Nat) (cs : List Char) : Apart (newline depth ++ cs) := by
  rintro _ ⟨⟩
  rfl

theorem apart_renderItems (depth : Nat) (items : List Json) {cs : List Char} (h : Apart cs) :
    Apart (renderItems depth items ++ cs) := by
  rcases items with _ | ⟨v, rest⟩
  · exact h
  · rw [renderItems]
    rintro _ ⟨⟩
    rfl

theorem apart_renderFields (depth : Nat) (fields : List (String × Json)) {cs : List Char}
    (h : Apart cs) : Apart (renderFields depth fields ++ cs) := by
  rcases fields with _ | ⟨⟨name, v⟩, rest⟩
  · exact h
  · rw [renderFields]
    rintro _ ⟨⟩
    rfl

mutual

/-- A value is cut into its tokens, whatever stands behind it as long as that is no digit. -/
theorem tokens?_render (depth : Nat) {cs : List Char} {ts : List Token} (happart : Apart cs)
    (h : tokens? cs = some ts) :
    ∀ v : Json, tokens? (render depth v ++ cs) = some (tokens v ++ ts)
  | null => by
    rw [render]
    exact tokens?_cons rfl h
  | bool true => by
    rw [render]
    exact tokens?_cons rfl h
  | bool false => by
    rw [render]
    exact tokens?_cons rfl h
  | num n => by
    rw [render]
    exact tokens?_cons (token?_num n happart) h
  | str s => by
    rw [render]
    exact tokens?_cons (token?_quote s cs) h
  | arr [] => by
    rw [render]
    exact tokens?_cons rfl (tokens?_cons rfl h)
  | arr (v :: rest) => by
    -- from the left: the bracket, the first item, the other items, the last bracket
    simp only [render, tokens, List.append_assoc, List.cons_append, List.nil_append]
    refine tokens?_cons rfl ?_
    rw [tokens?_newline]
    refine tokens?_render _ (apart_renderItems _ rest (apart_newline _ _)) ?_ v
    refine tokens?_renderItems _ (apart_newline _ _) ?_ rest
    rw [tokens?_newline]
    exact tokens?_cons rfl h
  | obj [] => by
    rw [render]
    exact tokens?_cons rfl (tokens?_cons rfl h)
  | obj ((name, v) :: rest) => by
    simp only [render, tokens, List.append_assoc, List.cons_append, List.nil_append]
    refine tokens?_cons rfl ?_
    rw [tokens?_newline]
    refine tokens?_name (tokens?_render _ (apart_renderFields _ rest (apart_newline _ _)) ?_ v)
    refine tokens?_renderFields _ (apart_newline _ _) ?_ rest
    rw [tokens?_newline]
    exact tokens?_cons rfl h

theorem tokens?_renderItems (depth : Nat) {cs : List Char} {ts : List Token} (happart : Apart cs)
    (h : tokens? cs = some ts) :
    ∀ items : List Json, tokens? (renderItems depth items ++ cs) = some (itemTokens items ++ ts)
  | [] => h
  | v :: rest => by
    simp only [renderItems, itemTokens, List.append_assoc, List.cons_append]
    refine tokens?_cons rfl ?_
    rw [tokens?_newline]
    refine tokens?_render _ (apart_renderItems _ rest happart) ?_ v
    exact tokens?_renderItems _ happart h rest

theorem tokens?_renderFields (depth : Nat) {cs : List Char} {ts : List Token} (happart : Apart cs)
    (h : tokens? cs = some ts) :
    ∀ fields : List (String × Json),
      tokens? (renderFields depth fields ++ cs) = some (fieldTokens fields ++ ts)
  | [] => h
  | (name, v) :: rest => by
    simp only [renderFields, fieldTokens, List.append_assoc, List.cons_append, List.nil_append]
    refine tokens?_cons rfl ?_
    rw [tokens?_newline]
    refine tokens?_name (tokens?_render _ (apart_renderFields _ rest happart) ?_ v)
    exact tokens?_renderFields _ happart h rest

end

/-! ## From tokens to the value -/

/-- An array with items is not taken for an empty one. -/
theorem tokens_append_ne (v : Json) (ts ts' : List Token) : tokens v ++ ts ≠ .closeArr :: ts' := by
  rcases v with _ | _ | _ | _ | (_ | _) | (_ | _)
  all_goals simp [tokens]

mutual

/-- Where a value must come next, its tokens are read as the value. -/
theorem value?_tokens (frames : List Frame) (ts : List Token) :
    ∀ v : Json, value? frames (tokens v ++ ts) = behind? v frames ts
  | null => by rw [tokens, List.singleton_append, value?]
  | bool b => by rw [tokens, List.singleton_append, value?]
  | num n => by rw [tokens, List.singleton_append, value?]
  | str s => by rw [tokens, List.singleton_append, value?]
  | arr [] => by
    rw [tokens, List.cons_append, List.cons_append, List.nil_append, value?]
  | arr (v :: rest) => by
    simp only [tokens, List.append_assoc, List.cons_append, List.nil_append]
    rw [value?, value?_tokens, behind?_itemTokens, List.reverse_nil, List.nil_append]
    exact fun _ => tokens_append_ne v _ _
  | obj [] => by
    rw [tokens, List.cons_append, List.cons_append, List.nil_append, value?]
  | obj ((name, v) :: rest) => by
    simp only [tokens, List.append_assoc, List.cons_append, List.nil_append]
    rw [value?, value?_tokens, behind?_fieldTokens, List.reverse_nil, List.nil_append]

/-- Behind an item of an array the others are read, and the array is closed. -/
theorem behind?_itemTokens (v : Json) (done : List Json) (frames : List Frame) (ts : List Token) :
    ∀ rest : List Json, behind? v (.arr done :: frames) (itemTokens rest ++ .closeArr :: ts) =
      behind? (arr (done.reverse ++ v :: rest)) frames ts
  | [] => by
    rw [itemTokens, List.nil_append, behind?, List.reverse_cons]
  | w :: rest => by
    simp only [itemTokens, List.append_assoc, List.cons_append]
    rw [behind?, value?_tokens, behind?_itemTokens, List.reverse_cons, List.append_assoc,
      List.singleton_append]

/-- Behind a field of an object the others are read, and the object is closed. -/
theorem behind?_fieldTokens (name : String) (v : Json) (done : List (String × Json))
    (frames : List Frame) (ts : List Token) :
    ∀ rest : List (String × Json),
      behind? v (.obj done name :: frames) (fieldTokens rest ++ .closeObj :: ts) =
        behind? (obj (done.reverse ++ (name, v) :: rest)) frames ts
  | [] => by
    rw [fieldTokens, List.nil_append, behind?, List.reverse_cons]
  | (next, w) :: rest => by
    simp only [fieldTokens, List.append_assoc, List.cons_append]
    rw [behind?, value?_tokens, behind?_fieldTokens, List.reverse_cons, List.append_assoc,
      List.singleton_append]

end

/-- **A value can be read from the line it is printed on.** -/
theorem read?_line (v : Json) : read? (v.pretty ++ "\n") = some v := by
  have htokens : tokens? (render 0 v ++ ['\n']) = some (tokens v ++ []) :=
    tokens?_render 0 (apart_newline 0 []) (by rw [tokens?_newline, tokens?]) v
  rw [read?, pretty, String.toList_append, String.toList_ofList]
  show (tokens? (render 0 v ++ ['\n'])).bind (value? []) = some v
  rw [htokens, Option.bind_some, value?_tokens]
  rfl

end Json
end PrefixPattern
