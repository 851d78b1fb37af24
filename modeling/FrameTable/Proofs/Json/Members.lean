import FrameTable.Json.Value
import Mathlib.Data.List.Forall2

namespace FrameTable

section Lists

variable {α β : Type} {read? : α → Option β} {items : List α} {values : List β} {R S : α → β → Prop}

theorem mapM_eq_some_iff :
    items.mapM read? = some values ↔ List.Forall₂ (fun item value => read? item = some value) items values := by
  induction items generalizing values with
  | nil => cases values <;> simp
  | cons item items ih => cases values <;> simp [List.mapM_cons, ih, Option.bind_eq_some_iff]

theorem isSome_mapM : (items.mapM read?).isSome ↔ ∀ item ∈ items, (read? item).isSome := by
  induction items with
  | nil => simp
  | cons item items ih =>
    rw [List.forall_mem_cons, ← ih]
    cases hitem : read? item <;> simp [List.mapM_cons, hitem, Option.isSome_bind]

theorem forall₂_congr_of_mem (h : ∀ item ∈ items, ∀ value, R item value ↔ S item value) :
    List.Forall₂ R items values ↔ List.Forall₂ S items values := by
  induction items generalizing values with
  | nil => simp only [List.forall₂_nil_left_iff]
  | cons item items ih =>
    obtain ⟨hitem, hitems⟩ := List.forall_mem_cons.mp h
    simp only [List.forall₂_cons_left_iff, hitem, ih hitems]

theorem lookup_eq_some_iff_mem {members : List (String × β)} {key : String} {value : β}
    (hnames : (members.map Prod.fst).Nodup) :
    members.lookup key = some value ↔ (key, value) ∈ members := by
  induction members with
  | nil => simp
  | cons m members ih =>
    obtain ⟨name, other⟩ := m
    obtain ⟨hfresh, hnames⟩ := List.nodup_cons.mp hnames
    rw [List.lookup_cons, List.mem_cons, Prod.mk.injEq]
    by_cases heq : key = name
    · have hbehind : (name, value) ∉ members := fun hmem => hfresh (List.mem_map.mpr ⟨(name, value), hmem, rfl⟩)
      simp [heq, hbehind, eq_comm]
    · simp [beq_eq_false_iff_ne.mpr heq, heq, ih hnames]

end Lists

namespace Json

variable {α : Type} {members : List (String × Json)} {key : String} {j : Json}
variable {read? : Json → Option α} {Shape : Json → Prop} {Denotes : Json → α → Prop}

/-- What a reader makes of a value: it accepts the value if it has a given shape, and what it then reads is what the
value denotes. -/
structure Reads (result : Option α) (shape : Prop) (denotes : α → Prop) : Prop where
  accepts : result.isSome ↔ shape
  reads : ∀ value, result = some value ↔ denotes value

def Named : Json → Prop
  | .obj members => (members.map Prod.fst).Nodup
  | .arr _ => False
  | _ => True

def IsString : Json → Prop
  | .str _ => True
  | _ => False

def ListOf (Shape : Json → Prop) : Json → Prop
  | .arr items => ∀ item ∈ items, Shape item
  | _ => False

def ListDenotes (Denotes : Json → α → Prop) : Json → List α → Prop
  | .arr items, values => List.Forall₂ Denotes items values
  | _, _ => False

def MemberDenotes (members : List (String × Json)) (key : String) (Denotes : Json → α → Prop)
    (default value : α) : Prop :=
  (∃ j, (key, j) ∈ members ∧ Denotes j value) ∨ (∀ j, (key, j) ∉ members) ∧ value = default

theorem reads_str? (j : Json) : Reads j.str? j.IsString (j = .str ·) := by
  cases j <;> constructor <;> simp [str?, IsString]

theorem reads_list?
    (hitem : ∀ items, j = .arr items → ∀ item ∈ items, Reads (read? item) (Shape item) (Denotes item)) :
    Reads (j.list? read?) (j.ListOf Shape) (j.ListDenotes Denotes) := by
  cases j with
  | arr items =>
    have hitem := hitem items rfl
    exact {
      accepts := isSome_mapM.trans (forall₂_congr fun item hmem => (hitem item hmem).accepts)
      reads := fun values => mapM_eq_some_iff.trans (forall₂_congr_of_mem fun item hmem => (hitem item hmem).reads) }
  | _ => constructor <;> simp [list?, ListOf, ListDenotes]

theorem reads_strings (j : Json) :
    Reads (j.list? str?) (j.ListOf IsString) (fun texts => j = .arr (texts.map .str)) := by
  obtain ⟨haccepts, hreads⟩ := reads_list? (j := j) fun _ _ item _ => reads_str? item
  refine ⟨haccepts, fun texts => (hreads texts).trans ?_⟩
  cases j with
  | arr items =>
    rw [ListDenotes, ← List.forall₂_map_right_iff (f := Json.str), List.forall₂_eq_eq_eq, Json.arr.injEq]
  | _ => simp [ListDenotes]

theorem list?_map (read? : Json → Option α) {write : α → Json} {values : List α}
    (hread : ∀ value ∈ values, read? (write value) = some value) :
    list? read? (.arr (values.map write)) = some values := by
  rw [list?, mapM_eq_some_iff, List.forall₂_map_left_iff, List.forall₂_same]
  exact hread

theorem member_cases (hnames : (members.map Prod.fst).Nodup) (key : String) :
    (∀ j, (key, j) ∉ members) ∧ members.lookup key = none ∨
      ∃ j, (∀ value, (key, value) ∈ members ↔ value = j) ∧ members.lookup key = some j := by
  cases hlookup : members.lookup key with
  | none =>
    refine .inl ⟨fun j hmem => ?_, rfl⟩
    rw [(lookup_eq_some_iff_mem hnames).mpr hmem] at hlookup
    cases hlookup
  | some j =>
    refine .inr ⟨j, fun value => ?_, rfl⟩
    rw [← lookup_eq_some_iff_mem hnames, hlookup, Option.some.injEq, eq_comm]

theorem reads_member (hnames : (members.map Prod.fst).Nodup) (key : String)
    (hread : ∀ j, (key, j) ∈ members → Reads (read? j) (Shape j) (Denotes j)) :
    Reads (member? members key read? none) (∃ j, (key, j) ∈ members ∧ Shape j)
      (fun value => ∃ j, (key, j) ∈ members ∧ Denotes j value) := by
  obtain ⟨habsent, hlookup⟩ | ⟨j, hmem, hlookup⟩ := member_cases hnames key
  · constructor <;> simp [member?, hlookup, habsent]
  · obtain ⟨haccepts, hreads⟩ := hread j ((hmem j).mpr rfl)
    constructor <;> simp [member?, hlookup, hmem, haccepts, hreads]

theorem reads_member_or (hnames : (members.map Prod.fst).Nodup) (key : String) (default : α)
    (hread : ∀ j, (key, j) ∈ members → Reads (read? j) (Shape j) (Denotes j)) :
    Reads (member? members key read? (some default)) (∀ j, (key, j) ∈ members → Shape j)
      (MemberDenotes members key Denotes default) := by
  obtain ⟨habsent, hlookup⟩ | ⟨j, hmem, hlookup⟩ := member_cases hnames key
  · constructor <;> simp [member?, MemberDenotes, hlookup, habsent, eq_comm]
  · obtain ⟨haccepts, hreads⟩ := hread j ((hmem j).mpr rfl)
    constructor <;> simp [member?, MemberDenotes, hlookup, hmem, haccepts, hreads]

section Invariants

variable {P : α → Prop} (hread : ∀ j value, read? j = some value → P value)
include hread

theorem member?_spec {default value : α} (hdefault : P default)
    (h : member? members key read? (some default) = some value) : P value := by
  rw [member?] at h
  split at h
  · exact Option.some.inj h ▸ hdefault
  · exact hread _ _ h

theorem list?_spec {values : List α} (h : j.list? read? = some values) : ∀ value ∈ values, P value := by
  cases j with
  | arr items =>
    have hitems : List.Forall₂ (fun item value => read? item = some value) items values := mapM_eq_some_iff.mp h
    induction hitems with
    | nil => exact List.forall_mem_nil P
    | cons hfirst hrest ih => exact List.forall_mem_cons.mpr ⟨hread _ _ hfirst, ih (mapM_eq_some_iff.mpr hrest)⟩
  | _ => cases h

end Invariants

end Json

end FrameTable
