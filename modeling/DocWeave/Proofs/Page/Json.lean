import DocWeave.Page.Json
import DocWeave.Proofs.Json
import Mathlib.Data.List.Forall2

/-!
# Documents are told by their JSON texts

The type of a block or a node stands in its first field, and each of the other fields has a name of
its own, so no two documents have the same text. Only the line numbers of places are not written.

- `Node.toJson_inj`: nodes.
- `Pending.jsonFields_eq_iff`: places, with their requests.
- `Block.Alike`: blocks that agree up to line numbers; `Block.toJson_eq_iff`.
- `jsonText_eq_iff`: documents.
-/

namespace DocWeave

/-! ## Fields that may be absent -/

/-- A field that may be absent is told by the fields from it on, as long as none of the following
ones has its name. -/
theorem optionalField_append_inj {name : String} {a b : Option String}
    {r t : List (String × JsonValue)} (h : optionalField name a ++ r = optionalField name b ++ t)
    (hr : name ∉ r.map (·.1)) (ht : name ∉ t.map (·.1)) : a = b ∧ r = t := by
  cases a with
  | none =>
    cases b with
    | none => exact ⟨rfl, h⟩
    | some y =>
      have hr' : r = (name, .string y) :: t := h
      rw [hr'] at hr
      exact absurd List.mem_cons_self hr
  | some x =>
    cases b with
    | none =>
      have ht' : (name, .string x) :: r = t := h
      rw [← ht'] at ht
      exact absurd List.mem_cons_self ht
    | some y =>
      obtain ⟨hfield, hrest⟩ := List.cons.inj h
      cases hfield
      exact ⟨rfl, hrest⟩

/-! ## Labels -/

theorem Kind.jsonName_inj : ∀ a b : Kind, a.jsonName = b.jsonName → a = b := by
  intro a b
  cases a <;> cases b <;> decide

theorem Admonition.name_inj : ∀ a b : Admonition, a.name = b.name → a = b := by
  intro a b
  cases a <;> cases b <;> decide

/-- The type that the first field of a label holds. -/
def Label.typeName : Label → String
  | .plain kind => kind.jsonName
  | .heading _ => "heading"
  | .admonition _ => "admonition"
  | .link _ => "link"

theorem Label.jsonFields_eq_cons (a : Label) :
    ∃ more, a.jsonFields = ("type", .string a.typeName) :: more := by
  cases a <;> exact ⟨_, rfl⟩

/-- Types of text leaves and of labels differ. -/
theorem Label.typeName_ne_text (a : Label) : a.typeName ≠ "text" := by
  cases a with
  | plain kind => cases kind <;> simp [typeName, Kind.jsonName]
  | _ => simp [typeName]

/-- A label is told by any fields that start with its own. -/
theorem Label.jsonFields_append_inj {a b : Label} {r t : List (String × JsonValue)}
    (h : a.jsonFields ++ r = b.jsonFields ++ t) : a = b ∧ r = t := by
  have htype : a.typeName = b.typeName := by
    obtain ⟨more, ha⟩ := a.jsonFields_eq_cons
    obtain ⟨more', hb⟩ := b.jsonFields_eq_cons
    rw [ha, hb] at h
    exact JsonValue.string.inj (Prod.mk.inj (List.cons.inj h).1).2
  -- The type fixes the constructor, and the second field what it holds.
  cases a with
  | plain kind =>
    cases b with
    | plain kind' =>
      obtain rfl := Kind.jsonName_inj kind kind' htype
      exact ⟨rfl, (List.cons.inj h).2⟩
    | _ => cases kind <;> simp [typeName, Kind.jsonName] at htype
  | heading depth =>
    cases b with
    | heading depth' =>
      obtain ⟨hdepth, hrest⟩ := List.cons.inj (List.cons.inj h).2
      have hnat : depth.toNat = depth'.toNat := JsonValue.number.inj (Prod.mk.inj hdepth).2
      obtain rfl := UInt8.toNat_inj.mp hnat
      exact ⟨rfl, hrest⟩
    | plain kind => cases kind <;> simp [typeName, Kind.jsonName] at htype
    | _ => simp [typeName] at htype
  | admonition kind =>
    cases b with
    | admonition kind' =>
      obtain ⟨hkind, hrest⟩ := List.cons.inj (List.cons.inj h).2
      have hname : kind.name = kind'.name := JsonValue.string.inj (Prod.mk.inj hkind).2
      obtain rfl := Admonition.name_inj kind kind' hname
      exact ⟨rfl, hrest⟩
    | plain kind' => cases kind' <;> simp [typeName, Kind.jsonName] at htype
    | _ => simp [typeName] at htype
  | link url =>
    cases b with
    | link url' =>
      obtain ⟨hurl, hrest⟩ := List.cons.inj (List.cons.inj h).2
      obtain rfl : url = url' := JsonValue.string.inj (Prod.mk.inj hurl).2
      exact ⟨rfl, hrest⟩
    | plain kind => cases kind <;> simp [typeName, Kind.jsonName] at htype
    | _ => simp [typeName] at htype

/-! ## Nodes -/

mutual

/-- A node is told by its JSON value. -/
theorem Node.toJson_inj : ∀ {n m : Node}, n.toJson = m.toJson → n = m
  | .text a, .text b, h => by
    rw [toJson, toJson] at h
    have hvalue := (List.cons.inj (List.cons.inj (JsonValue.object.inj h)).2).1
    rw [JsonValue.string.inj (Prod.mk.inj hvalue).2]
  | .text a, .branch label id children, h => by
    rw [toJson, toJson] at h
    obtain ⟨more, hlabel⟩ := label.jsonFields_eq_cons
    rw [hlabel] at h
    have htype := (List.cons.inj (JsonValue.object.inj h)).1
    exact absurd (JsonValue.string.inj (Prod.mk.inj htype).2).symm label.typeName_ne_text
  | .branch label id children, .text b, h => by
    rw [toJson, toJson] at h
    obtain ⟨more, hlabel⟩ := label.jsonFields_eq_cons
    rw [hlabel] at h
    have htype := (List.cons.inj (JsonValue.object.inj h)).1
    exact absurd (JsonValue.string.inj (Prod.mk.inj htype).2) label.typeName_ne_text
  | .branch label id children, .branch label' id' children', h => by
    rw [toJson, toJson] at h
    have hfields := JsonValue.object.inj h
    rw [List.append_assoc, List.append_assoc] at hfields
    obtain ⟨rfl, hid⟩ := Label.jsonFields_append_inj hfields
    obtain ⟨rfl, hlast⟩ := optionalField_append_inj hid (by simp) (by simp)
    have hchildren := JsonValue.array.inj (Prod.mk.inj (List.cons.inj hlast).1).2
    rw [Node.listToJson_inj hchildren]

/-- So are the nodes of a list. -/
theorem Node.listToJson_inj : ∀ {ns ms : List Node}, listToJson ns = listToJson ms → ns = ms
  | [], [], _ => rfl
  | [], _ :: _, h => by cases h
  | _ :: _, [], h => by cases h
  | n :: ns, m :: ms, h => by
    rw [listToJson, listToJson] at h
    obtain ⟨hfirst, hrest⟩ := List.cons.inj h
    rw [Node.toJson_inj hfirst, Node.listToJson_inj hrest]

end

/-! ## Blocks and documents -/

namespace Page

/-- The fields of a place tell its request and its nodes. An option that is absent has no field, and
so differs from one with the empty value. -/
theorem Pending.jsonFields_eq_iff {p q : Pending} :
    p.jsonFields = q.jsonFields ↔ p.request = q.request ∧ p.children = q.children := by
  constructor
  · intro h
    obtain ⟨⟨name, members, undoc, hidden, special⟩, line, children⟩ := p
    obtain ⟨⟨name', members', undoc', hidden', special'⟩, line', children'⟩ := q
    simp only [Pending.jsonFields, Request.jsonFields, List.cons_append, List.append_assoc] at h
    obtain ⟨hname, hmembers⟩ := List.cons.inj h
    obtain rfl : name = name' := JsonValue.string.inj (Prod.mk.inj hname).2
    have hother (a : Option String) (name : String) {other : String} (h : other ≠ name) :
        other ∉ (optionalField name a).map (·.1) := by
      cases a <;> simp [optionalField, h]
    obtain ⟨rfl, hundoc⟩ := optionalField_append_inj hmembers (by simp [hother]) (by simp [hother])
    obtain ⟨rfl, hhidden⟩ := optionalField_append_inj hundoc (by simp [hother]) (by simp [hother])
    obtain ⟨rfl, hspecial⟩ := optionalField_append_inj hhidden (by simp [hother]) (by simp [hother])
    obtain ⟨rfl, hlast⟩ := optionalField_append_inj hspecial (by simp) (by simp)
    have hchildren := JsonValue.array.inj (Prod.mk.inj (List.cons.inj hlast).1).2
    exact ⟨rfl, Node.listToJson_inj hchildren⟩
  · rintro ⟨hrequest, hchildren⟩
    rw [Pending.jsonFields, Pending.jsonFields, hrequest, hchildren]

/-- Blocks that agree up to the line numbers of places. -/
inductive Block.Alike : Block → Block → Prop where
  | markdown (value : String) : Alike (.markdown value) (.markdown value)
  | autodoc (request : Request) (line line' : Nat) (children : List Node) :
      Alike (.autodoc ⟨request, line, children⟩) (.autodoc ⟨request, line', children⟩)

theorem Block.toJson_eq_iff {a b : Block} : a.toJson = b.toJson ↔ a.Alike b := by
  constructor
  · intro h
    cases a with
    | markdown value =>
      cases b with
      | markdown value' =>
        have hfields := JsonValue.object.inj h
        have hvalue := (List.cons.inj (List.cons.inj hfields).2).1
        obtain rfl : value = value' := JsonValue.string.inj (Prod.mk.inj hvalue).2
        exact .markdown value
      | autodoc place => simp [toJson] at h
    | autodoc place =>
      cases b with
      | markdown value => simp [toJson] at h
      | autodoc place' =>
        have hfields := JsonValue.object.inj h
        obtain ⟨request, line, children⟩ := place
        obtain ⟨request', line', children'⟩ := place'
        obtain ⟨rfl, rfl⟩ := Pending.jsonFields_eq_iff.mp (List.cons.inj hfields).2
        exact .autodoc request line line' children
  · intro h
    cases h with
    | markdown value => rfl
    | autodoc request line line' children => rfl

/-- **JSON texts tell documents apart.** Two documents have the same JSON text exactly if they have
the same blocks one after the other: the same Markdown, and places with the same requests and the
same nodes. Only the lines that the places come from may differ. -/
theorem jsonText_eq_iff (d e : Document) :
    d.jsonText = e.jsonText ↔ List.Forall₂ Block.Alike d.blocks e.blocks := by
  have hlist : ∀ {xs ys : List Block},
      xs.map Block.toJson = ys.map Block.toJson ↔ List.Forall₂ Block.Alike xs ys := by
    intro xs ys
    rw [← List.forall₂_eq_eq_eq, List.forall₂_map_left_iff, List.forall₂_map_right_iff]
    simp only [Block.toJson_eq_iff]
  have htext : d.jsonText = e.jsonText ↔ d.toJson = e.toJson := JsonValue.pretty_inj
  rw [htext, ← hlist]
  constructor
  · intro h
    have hchildren := (List.cons.inj (List.cons.inj (JsonValue.object.inj h)).2).1
    exact JsonValue.array.inj (Prod.mk.inj hchildren).2
  · intro h
    rw [Document.toJson, Document.toJson, h]

end Page

end DocWeave
