import DocWeave.Json
import Mathlib.Data.List.Basic
import Mathlib.Data.List.TakeWhile
import Mathlib.Data.Prod.Basic

/-!
# JSON texts are read in one way

From a text that starts with a written value, both the value and the rest of the text can be told,
unless the rest goes on with a digit. Each kind of value starts with a character of its own, a quoted
text ends at the first quote that is not escaped, and after an item or a field there is either a
comma or the end of its list.

- `readChar?`: the first character of a quoted text; `readChar?_escapeChar`: it undoes escaping.
- `quote_append_inj`, `repr_append_inj`: quoted texts and numbers.
- `write_append_inj`: values; `pretty_inj`: whole texts.
-/

namespace DocWeave.JsonValue

/-! ## Characters of quoted texts -/

/-- The value of a hexadecimal digit. -/
def hexValue (c : Char) : Nat :=
  if c.isDigit then c.toNat - '0'.toNat else c.toNat - 'a'.toNat + 10

/-- The number that hexadecimal digits make. -/
def hexNumber (digits : List Char) : Nat :=
  digits.foldl (fun n c => 16 * n + hexValue c) 0

/-- The character that a backslash and `c` stand for, if no digits have to follow. -/
def unescape (c : Char) : Char :=
  if c = 'n' then '\n'
  else if c = 'r' then '\r'
  else if c = 't' then '\t'
  else if c = 'b' then '\x08'
  else if c = 'f' then '\x0c'
  else c

/-- The first character of a text in quotes, and what follows it; none where the closing quote
stands. -/
def readChar? : List Char → Option (Char × List Char)
  | '\\' :: 'u' :: a :: b :: c :: d :: rest => some (.ofNat (hexNumber [a, b, c, d]), rest)
  | '\\' :: c :: rest => some (unescape c, rest)
  | c :: rest => if c = '"' then none else some (c, rest)
  | [] => none

/-- The four digits of a control character, with the number that they make. -/
theorem unicodeEscape_eq {c : Char} (h : c.toNat < 0x20) :
    ∃ a b d e, unicodeEscape c = ['\\', 'u', a, b, d, e] ∧ hexNumber [a, b, d, e] = c.toNat := by
  -- There are only 32 control characters to look at.
  have hcheck : ∀ n < 0x20,
      (List.replicate (4 - (Nat.toDigits 16 n).length) '0' ++ Nat.toDigits 16 n).length = 4 ∧
        hexNumber (List.replicate (4 - (Nat.toDigits 16 n).length) '0' ++ Nat.toDigits 16 n) = n := by
    decide
  obtain ⟨hlength, hnumber⟩ := hcheck c.toNat h
  obtain ⟨a, b, d, e, hdigits⟩ := List.length_eq_four.mp hlength
  rw [hdigits] at hnumber
  exact ⟨a, b, d, e, congrArg (fun digits => '\\' :: 'u' :: digits) hdigits, hnumber⟩

/-- A character that has been escaped is read back, whatever follows. -/
theorem readChar?_escapeChar (c : Char) (rest : List Char) :
    readChar? (escapeChar c ++ rest) = some (c, rest) := by
  unfold escapeChar
  split_ifs with hquote hback hfeed hreturn htab hbackspace hform hcontrol
  · rw [hquote]; rfl
  · rw [hback]; rfl
  · rw [hfeed]; rfl
  · rw [hreturn]; rfl
  · rw [htab]; rfl
  · rw [hbackspace]; rfl
  · rw [hform]; rfl
  · obtain ⟨a, b, d, e, hescape, hnumber⟩ := unicodeEscape_eq hcontrol
    rw [hescape]
    show some (Char.ofNat (hexNumber [a, b, d, e]), rest) = _
    rw [hnumber, Char.ofNat_toNat]
  · rw [List.singleton_append, readChar?.eq_def]
    split
    · rename_i heq
      exact absurd (List.cons.inj heq).1 hback
    · rename_i heq
      exact absurd (List.cons.inj heq).1 hback
    · rename_i heq
      obtain ⟨rfl, rfl⟩ := List.cons.inj heq
      rw [if_neg hquote]
    · rename_i heq
      cases heq

/-- The characters of a text in quotes, and what follows the closing quote. -/
theorem flatMap_append_inj {x y r t : List Char}
    (h : x.flatMap escapeChar ++ '"' :: r = y.flatMap escapeChar ++ '"' :: t) : x = y ∧ r = t := by
  have hend (rest : List Char) : readChar? ('"' :: rest) = none := rfl
  -- An escaped character is read back whatever follows, so both texts start with the same one.
  induction x generalizing y with
  | nil =>
    cases y with
    | nil => exact ⟨rfl, (List.cons.inj h).2⟩
    | cons d y =>
      rw [List.flatMap_cons, List.append_assoc] at h
      have hread := congrArg readChar? h
      rw [readChar?_escapeChar, List.flatMap_nil, List.nil_append, hend] at hread
      cases hread
  | cons c x ih =>
    rw [List.flatMap_cons, List.append_assoc] at h
    cases y with
    | nil =>
      have hread := congrArg readChar? h
      rw [readChar?_escapeChar, List.flatMap_nil, List.nil_append, hend] at hread
      cases hread
    | cons d y =>
      rw [List.flatMap_cons, List.append_assoc] at h
      have hread := congrArg readChar? h
      rw [readChar?_escapeChar, readChar?_escapeChar, Option.some_inj, Prod.mk_inj] at hread
      obtain ⟨rfl, hrest⟩ := hread
      obtain ⟨rfl, rfl⟩ := ih hrest
      exact ⟨rfl, rfl⟩

theorem quote_append_inj {a b : String} {r t : List Char} (h : quote a ++ r = quote b ++ t) :
    a = b ∧ r = t := by
  unfold quote at h
  rw [List.cons_append, List.cons_append, List.append_assoc, List.append_assoc] at h
  obtain ⟨htext, hrest⟩ := flatMap_append_inj (List.cons.inj h).2
  exact ⟨String.toList_inj.mp htext, hrest⟩

/-! ## Numbers -/

/-- What may follow a number: a text that does not go on with a digit. -/
def Stops (rest : List Char) : Prop :=
  ∀ c ∈ rest.head?, c.isDigit = false

theorem stops_cons {c : Char} {rest : List Char} : Stops (c :: rest) ↔ c.isDigit = false := by
  simp [Stops]

theorem stops_nil : Stops [] :=
  nofun

/-- The digits at the start of a text that goes on otherwise. -/
theorem takeWhile_repr_append (n : Nat) {r : List Char} (hr : Stops r) :
    ((Nat.repr n).toList ++ r).takeWhile Char.isDigit = Nat.toDigits 10 n := by
  rw [Nat.toList_repr, List.takeWhile_append_of_pos fun c hc =>
    Nat.isDigit_of_mem_toDigits (by decide) (by decide) hc]
  cases r with
  | nil => exact List.append_nil _
  | cons c r =>
    rw [List.takeWhile_cons_of_neg (by simp [stops_cons.mp hr]), List.append_nil]

theorem repr_append_inj {m n : Nat} {r t : List Char} (hr : Stops r) (ht : Stops t)
    (h : (Nat.repr m).toList ++ r = (Nat.repr n).toList ++ t) : m = n ∧ r = t := by
  -- What follows does not go on with a digit, so the digits at the start are those of the number.
  have hdigits := congrArg (List.takeWhile Char.isDigit) h
  rw [takeWhile_repr_append m hr, takeWhile_repr_append n ht] at hdigits
  have hnumber := congrArg (Nat.ofDigitChars 10 · 0) hdigits
  rw [Nat.ofDigitChars_ten_toDigits, Nat.ofDigitChars_ten_toDigits] at hnumber
  rw [hnumber] at h
  exact ⟨hnumber, List.append_cancel_left h⟩

/-! ## Entries between brackets -/

/-- Items and fields are laid out alike: each entry stands on a line of its own. -/
def group (opening closing : Char) (depth : Nat) : List (List Char) → List Char
  | [] => [opening, closing]
  | entry :: entries =>
    opening :: newLine (depth + 1) ++ entry ++ entries.flatMap (',' :: newLine (depth + 1) ++ ·) ++
      newLine depth ++ [closing]

theorem writeItems_eq (depth : Nat) : ∀ items : List JsonValue,
    writeItems depth items = (items.map (write depth)).flatMap (',' :: newLine depth ++ ·)
  | [] => by rw [writeItems]; rfl
  | item :: items => by
    rw [writeItems, writeItems_eq depth items, List.map_cons, List.flatMap_cons]

theorem writeFields_eq (depth : Nat) : ∀ fields : List (String × JsonValue),
    writeFields depth fields = (fields.map (writeField depth)).flatMap (',' :: newLine depth ++ ·)
  | [] => by rw [writeFields]; rfl
  | field :: fields => by
    rw [writeFields, writeFields_eq depth fields, List.map_cons, List.flatMap_cons]

theorem write_array (depth : Nat) (items : List JsonValue) :
    write depth (.array items) = group '[' ']' depth (items.map (write (depth + 1))) := by
  cases items with
  | nil => rw [write, List.map_nil, group]
  | cons item items =>
    rw [write, writeItems_eq, List.map_cons, group]

theorem write_object (depth : Nat) (fields : List (String × JsonValue)) :
    write depth (.object fields) =
      group '\x7b' '\x7d' depth (fields.map (writeField (depth + 1))) := by
  cases fields with
  | nil => rw [write, List.map_nil, group]
  | cons field fields =>
    rw [write, writeFields_eq, List.map_cons, group]

/-- `x` is told by any text that starts with the way in which `f` writes it, and so is the rest of
the text. -/
def Told {α : Type} (f : α → List Char) (x : α) : Prop :=
  ∀ y r t, Stops r → Stops t → f x ++ r = f y ++ t → x = y ∧ r = t

section

variable {α : Type} {f : α → List Char} {depth : Nat}

/-- Behind an entry there is a comma or a new line. -/
theorem stops_entries (entries : List (List Char)) (r : List Char) :
    Stops (entries.flatMap (',' :: newLine depth ++ ·) ++ '\n' :: r) := by
  cases entries <;> exact stops_cons.mpr (by decide)

/-- Further entries are told by a text in which they are followed by a new line. -/
theorem Told.entries : ∀ {xs ys : List α} {r t : List Char}, (∀ x ∈ xs, Told f x) →
    (xs.map f).flatMap (',' :: newLine depth ++ ·) ++ '\n' :: r =
      (ys.map f).flatMap (',' :: newLine depth ++ ·) ++ '\n' :: t → xs = ys ∧ r = t
  | [], [], _, _, _, h => ⟨rfl, (List.cons.inj h).2⟩
  | [], _ :: _, _, _, _, h => nomatch (List.cons.inj h).1
  | _ :: _, [], _, _, _, h => nomatch (List.cons.inj h).1
  | x :: xs, y :: ys, r, t, htold, h => by
    obtain ⟨hx, hxs⟩ := List.forall_mem_cons.mp htold
    rw [List.map_cons, List.map_cons, List.flatMap_cons, List.flatMap_cons] at h
    simp only [List.cons_append, List.append_assoc] at h
    have hfirst := List.append_cancel_left (List.cons.inj h).2
    obtain ⟨rfl, hmore⟩ := hx y _ _ (stops_entries _ r) (stops_entries _ t) hfirst
    obtain ⟨rfl, hrest⟩ := Told.entries hxs hmore
    exact ⟨rfl, hrest⟩

/-- So are all entries between brackets. -/
theorem Told.group {opening closing : Char} {xs ys : List α} {r t : List Char}
    (htold : ∀ x ∈ xs, Told f x) (hclosing : closing ≠ '\n')
    (h : group opening closing depth (xs.map f) ++ r = group opening closing depth (ys.map f) ++ t) :
    xs = ys ∧ r = t := by
  cases xs with
  | nil =>
    cases ys with
    | nil => exact ⟨rfl, List.append_cancel_left h⟩
    | cons y ys => exact absurd (List.cons.inj (List.cons.inj h).2).1 hclosing
  | cons x xs =>
    cases ys with
    | nil => exact absurd (List.cons.inj (List.cons.inj h).2).1.symm hclosing
    | cons y ys =>
      obtain ⟨hx, hxs⟩ := List.forall_mem_cons.mp htold
      rw [List.map_cons, List.map_cons, JsonValue.group, JsonValue.group] at h
      simp only [List.cons_append, List.append_assoc] at h
      have hfirst := List.append_cancel_left (List.cons.inj h).2
      obtain ⟨rfl, hmore⟩ := hx y _ _ (stops_entries _ _) (stops_entries _ _) hfirst
      obtain ⟨rfl, hend⟩ := Told.entries hxs hmore
      exact ⟨rfl, (List.cons.inj (List.append_cancel_left hend)).2⟩

end

/-! ## Values -/

/-- The kind of value that a text starts with, by its first character: all digits count as one. -/
def signOf (text : List Char) : Option Char :=
  text.head?.map fun c => if c.isDigit then '0' else c

/-- The sign of a value. -/
def sign : JsonValue → Char
  | .number _ => '0'
  | .string _ => '"'
  | .array _ => '['
  | .object _ => '\x7b'

theorem signOf_write (v : JsonValue) (depth : Nat) (r : List Char) :
    signOf (v.write depth ++ r) = some v.sign := by
  -- A number starts with some digit, all other values with a character of their own.
  cases v with
  | number n =>
    rw [write, Nat.toList_repr]
    rcases hdigits : Nat.toDigits 10 n with _ | ⟨c, digits⟩
    · exact absurd hdigits Nat.toDigits_ne_nil
    · have hc : c.isDigit = true :=
        Nat.isDigit_of_mem_toDigits (by decide) (by decide) (hdigits ▸ List.mem_cons_self)
      show some (if c.isDigit then '0' else c) = some '0'
      rw [if_pos hc]
  | string value => rw [write]; rfl
  | array items => cases items <;> rw [write] <;> rfl
  | object fields => cases fields <;> rw [write] <;> rfl

/-- Values with the same text in front are of the same kind. -/
theorem sign_eq {v w : JsonValue} {depth : Nat} {r t : List Char}
    (h : v.write depth ++ r = w.write depth ++ t) : v.sign = w.sign := by
  have hsign := congrArg signOf h
  rwa [signOf_write, signOf_write, Option.some_inj] at hsign

theorem Told.field {depth : Nat} {name : String} {v : JsonValue} (hv : Told (write depth) v) :
    Told (writeField depth) (name, v) := by
  rintro ⟨name', w⟩ r t hr ht h
  rw [writeField, writeField, List.append_assoc, List.append_assoc] at h
  obtain ⟨rfl, hvalue⟩ := quote_append_inj h
  obtain ⟨rfl, hrest⟩ := hv w r t hr ht (List.cons.inj (List.cons.inj hvalue).2).2
  exact ⟨rfl, hrest⟩

/-- A value is told by any text that starts with it. -/
theorem told_write : ∀ (v : JsonValue) (depth : Nat), Told (write depth) v
  | .number m, depth, w, r, t, hr, ht, h => by
    cases w with
    | number n =>
      rw [write, write] at h
      obtain ⟨rfl, hrest⟩ := repr_append_inj hr ht h
      exact ⟨rfl, hrest⟩
    | _ => cases sign_eq h
  | .string a, depth, w, r, t, _, _, h => by
    cases w with
    | string b =>
      rw [write, write] at h
      obtain ⟨rfl, hrest⟩ := quote_append_inj h
      exact ⟨rfl, hrest⟩
    | _ => cases sign_eq h
  | .array xs, depth, w, r, t, _, _, h => by
    cases w with
    | array ys =>
      rw [write_array, write_array] at h
      obtain ⟨rfl, hrest⟩ := Told.group (fun x hx => told_write x (depth + 1)) (by decide) h
      exact ⟨rfl, hrest⟩
    | _ => cases sign_eq h
  | .object xs, depth, w, r, t, _, _, h => by
    cases w with
    | object ys =>
      rw [write_object, write_object] at h
      obtain ⟨rfl, hrest⟩ :=
        Told.group (fun x hx => (told_write x.2 (depth + 1)).field) (by decide) h
      exact ⟨rfl, hrest⟩
    | _ => cases sign_eq h
termination_by v => v
decreasing_by
  · exact Nat.lt_trans (List.sizeOf_lt_of_mem hx) (by simp)
  · have hvalue : sizeOf x.2 < sizeOf x := by
      obtain ⟨name, value⟩ := x
      show sizeOf value < sizeOf (name, value)
      rw [Prod.mk.sizeOf_spec]
      omega
    exact Nat.lt_trans hvalue (Nat.lt_trans (List.sizeOf_lt_of_mem hx) (by simp))

/-- The text of a value tells the value. -/
theorem pretty_inj {v w : JsonValue} : v.pretty = w.pretty ↔ v = w := by
  refine ⟨fun h => ?_, congrArg pretty⟩
  have htext : v.write 0 ++ [] = w.write 0 ++ [] := by
    rw [List.append_nil, List.append_nil]
    exact String.ofList_inj.mp h
  exact (told_write v 0 w [] [] stops_nil stops_nil htext).1

end DocWeave.JsonValue
