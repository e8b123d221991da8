import DocWeave.Table
import Mathlib.Algebra.GroupWithZero.Nat
import Mathlib.Data.String.Basic

/-!
# Laws of tables

A table keeps its names in strictly ascending order, and on such a table `update` is the pointwise
update of the function `get?`.

- `Table.Ascending`: the order of the names, kept by every operation.
- `Table.get?_update`: what is found after an update.
- `Table.mem_names_update`: which names are listed after one.
- `Table.get?_foldl_put_eq`: of the values entered one after the other for a name, the last one stays.
-/

namespace DocWeave.Table

variable {α : Type}

/-- The names stand in ascending order, so none of them occurs twice. -/
def Ascending (t : Table α) : Prop :=
  t.names.Pairwise (· < ·)

theorem ascending_nil : Ascending ([] : Table α) :=
  List.Pairwise.nil

theorem ascending_cons {name : String} {value : α} {t : Table α} :
    Ascending ((name, value) :: t) ↔ (∀ key ∈ t.names, name < key) ∧ t.Ascending :=
  List.pairwise_cons

theorem names_cons (name : String) (value : α) (t : Table α) :
    names ((name, value) :: t) = name :: t.names := rfl

/-- The names after an update are the old ones and the one that was updated. -/
theorem mem_names_update {name key : String} {f : Option α → α} :
    ∀ {t : Table α}, key ∈ (t.update name f).names ↔ key = name ∨ key ∈ t.names
  | [] => by simp [update, names]
  | (k, v) :: rest => by
    unfold update
    split
    · rw [names_cons, List.mem_cons]
    · split
      · rename_i hname
        rw [names_cons, names_cons, List.mem_cons, hname]
        exact ⟨Or.inr, fun h => h.elim Or.inl id⟩
      · rw [names_cons, names_cons, List.mem_cons, List.mem_cons, mem_names_update]
        exact or_left_comm

/-- An update keeps the names in order. -/
theorem Ascending.update {name : String} {f : Option α → α} :
    ∀ {t : Table α}, t.Ascending → (t.update name f).Ascending
  | [], _ => List.pairwise_singleton _ _
  | (k, v) :: rest, h => by
    obtain ⟨hk, hrest⟩ := ascending_cons.mp h
    unfold Table.update
    split
    · rename_i hlt
      refine ascending_cons.mpr ⟨fun key hkey => ?_, h⟩
      rcases List.mem_cons.mp hkey with rfl | hkey
      · exact hlt
      · exact hlt.trans (hk key hkey)
    · split
      · exact ascending_cons.mpr ⟨hk, hrest⟩
      · rename_i hlt hne
        refine ascending_cons.mpr ⟨fun key hkey => ?_, hrest.update⟩
        rcases mem_names_update.mp hkey with rfl | hkey
        · exact lt_of_le_of_ne (not_lt.mp hlt) (Ne.symm hne)
        · exact hk key hkey

theorem get?_cons (key name : String) (value : α) (t : Table α) :
    get? ((name, value) :: t) key = if key = name then some value else t.get? key := by
  unfold get?
  by_cases h : key = name
  · rw [List.lookup_cons, beq_iff_eq.mpr h, if_pos h]
  · rw [List.lookup_cons, beq_false_of_ne h, if_neg h]

/-- A name that is not listed has no value. -/
theorem get?_eq_none {key : String} : ∀ {t : Table α}, key ∉ t.names → t.get? key = none
  | [], _ => rfl
  | (k, v) :: rest, h => by
    rw [names_cons, List.mem_cons, not_or] at h
    rw [get?_cons, if_neg h.1, get?_eq_none h.2]

/-- The names that are listed are those that have a value. -/
theorem isSome_get?_iff {key : String} : ∀ {t : Table α}, (t.get? key).isSome ↔ key ∈ t.names
  | [] => iff_of_false Bool.false_ne_true List.not_mem_nil
  | (k, v) :: rest => by
    rw [get?_cons, names_cons, List.mem_cons, ← isSome_get?_iff]
    by_cases hkey : key = k
    · rw [if_pos hkey]
      exact iff_of_true rfl (Or.inl hkey)
    · rw [if_neg hkey, or_iff_right hkey]

/-- A name that comes before all others has no value. -/
theorem get?_of_lt {name key : String} {value : α} {t : Table α}
    (h : Ascending ((key, value) :: t)) (hlt : name < key) :
    get? ((key, value) :: t) name = none := by
  refine get?_eq_none fun hmem => ?_
  rcases List.mem_cons.mp hmem with rfl | hmem
  · exact lt_irrefl _ hlt
  · exact lt_asymm hlt ((ascending_cons.mp h).1 name hmem)

/-- An update changes the value of its name, and no other. -/
theorem get?_update {name key : String} {f : Option α → α} :
    ∀ {t : Table α}, t.Ascending →
      (t.update name f).get? key = if key = name then some (f (t.get? name)) else t.get? key
  | [], _ => get?_cons key name _ []
  | (k, v) :: rest, h => by
    have hrest := (ascending_cons.mp h).2
    -- The update stops at the first name that is not smaller.
    unfold update
    split
    · rename_i hlt
      rw [get?_cons, get?_of_lt h hlt]
    · split
      · rename_i hname
        subst hname
        rw [get?_cons, get?_cons, get?_cons, if_pos rfl]
        split <;> rfl
      · rename_i hne
        rw [get?_cons, get?_update hrest, get?_cons, get?_cons, if_neg hne]
        by_cases hkey : key = k
        · rw [if_pos hkey, if_neg (hkey ▸ Ne.symm hne), if_pos hkey]
        · rw [if_neg hkey, if_neg hkey]

/-- Under its names stand the values of a table. -/
theorem map_get?_names :
    ∀ {t : Table α}, t.Ascending → t.names.map t.get? = t.map fun entry => some entry.2
  | [], _ => rfl
  | (k, v) :: rest, h => by
    obtain ⟨hk, hrest⟩ := ascending_cons.mp h
    have hothers : (names rest).map (get? ((k, v) :: rest)) = (names rest).map (get? rest) :=
      List.map_congr_left fun key hkey => by rw [get?_cons, if_neg (hk key hkey).ne']
    rw [names_cons, List.map_cons, List.map_cons, hothers, map_get?_names hrest, get?_cons, if_pos rfl]

/-- An update that adds to the size of a value adds as much to the size of the table. -/
theorem sum_update {size : α → Nat} {f : Option α → α} {n : Nat} (name : String)
    (hf : ∀ old, size (f old) = (old.map size).getD 0 + n) :
    ∀ t : Table α, ((t.update name f).map (size ·.2)).sum = (t.map (size ·.2)).sum + n
  | [] => by
    show size (f none) + 0 = 0 + n
    rw [hf none, Nat.add_zero]
    rfl
  | (k, v) :: rest => by
    -- A new entry adds its size, and one that is replaced the difference; either is `n`.
    have hnew : size (f none) = n := by rw [hf none, Option.map_none, Option.getD_none, Nat.zero_add]
    have hold : size (f (some v)) = size v + n := hf (some v)
    have hrest := sum_update name hf rest
    unfold update
    split
    · simp only [List.map_cons, List.sum_cons, hnew]
      omega
    · split
      · simp only [List.map_cons, List.sum_cons, hold]
        omega
      · simp only [List.map_cons, List.sum_cons, hrest]
        omega

/-- Entering names one after the other keeps the order. -/
theorem Ascending.foldl_put {β : Type} (name : β → String) (value : β → α) :
    ∀ (xs : List β) {t : Table α}, t.Ascending →
      (xs.foldl (fun t x => t.put (name x) (value x)) t).Ascending
  | [], _, h => h
  | _ :: xs, _, h => foldl_put name value xs h.update

/-- After entering some values, a name has the last one that was entered for it, or the one that it had
before. -/
theorem get?_foldl_put_eq {β : Type} {name : β → String} {value : β → α} {key : String} :
    ∀ {xs : List β} {t : Table α}, t.Ascending →
      (xs.foldl (fun t x => t.put (name x) (value x)) t).get? key =
        ((xs.filter fun x => name x = key).getLast?.map value).or (t.get? key)
  | [], _, _ => rfl
  | x :: xs, t, ht => by
    have hafter : (t.put (name x) (value x)).Ascending := ht.update
    have hput : (t.put (name x) (value x)).get? key =
        if key = name x then some (value x) else t.get? key := get?_update ht
    rw [List.foldl_cons, get?_foldl_put_eq hafter, hput, List.filter_cons]
    -- The first value only counts if no later one has its name.
    by_cases hx : name x = key
    · rw [if_pos hx.symm, decide_eq_true hx, if_pos rfl, List.getLast?_cons]
      cases (xs.filter fun x => name x = key).getLast? <;> rfl
    · rw [if_neg (Ne.symm hx), decide_eq_false hx, if_neg Bool.false_ne_true]

/-- A value that is found after entering some was found before, or is one of them. -/
theorem get?_foldl_put {β : Type} {name : β → String} {value : β → α} {key : String} {v : α}
    {xs : List β} {t : Table α} (ht : t.Ascending)
    (h : (xs.foldl (fun t x => t.put (name x) (value x)) t).get? key = some v) :
    t.get? key = some v ∨ ∃ x ∈ xs, value x = v := by
  rw [get?_foldl_put_eq ht, Option.or_eq_some_iff] at h
  rcases h with hlast | ⟨-, hbefore⟩
  · obtain ⟨x, hx, rfl⟩ := Option.map_eq_some_iff.mp hlast
    exact Or.inr ⟨x, List.mem_of_mem_filter (List.mem_of_getLast? hx), rfl⟩
  · exact Or.inl hbefore

/-- The names after entering some are the old and the new ones. -/
theorem mem_names_foldl_put {β : Type} (name : β → String) (value : β → α) {key : String} :
    ∀ (xs : List β) {t : Table α},
      key ∈ (xs.foldl (fun t x => t.put (name x) (value x)) t).names ↔
        key ∈ t.names ∨ ∃ x ∈ xs, name x = key
  | [], _ => by simp
  | x :: xs, t => by
    rw [List.foldl_cons, mem_names_foldl_put name value xs, put, mem_names_update]
    constructor
    · rintro ((rfl | h) | ⟨y, hy, rfl⟩)
      · exact Or.inr ⟨x, List.mem_cons_self, rfl⟩
      · exact Or.inl h
      · exact Or.inr ⟨y, List.mem_cons_of_mem x hy, rfl⟩
    · rintro (h | ⟨y, hy, rfl⟩)
      · exact Or.inl (Or.inr h)
      · rcases List.mem_cons.mp hy with rfl | hy
        · exact Or.inl (Or.inl rfl)
        · exact Or.inr ⟨y, hy, rfl⟩

end DocWeave.Table
