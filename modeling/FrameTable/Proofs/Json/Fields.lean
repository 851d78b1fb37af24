import FrameTable.Json.Batch
import FrameTable.Proofs.Json.Members
import Mathlib.Data.List.Induction
import Mathlib.Data.List.Nodup

namespace FrameTable

def Number.Is64Bit (value : Int) : Prop := -9223372036854775808 ≤ value ∧ value ≤ 9223372036854775807

theorem Number.clamp64_eq_iff {value : Int} : clamp64 value = value ↔ Is64Bit value := by
  simp only [clamp64, clamp, Is64Bit]
  omega

namespace FieldValue

variable {j : Json} {value : FieldValue}

def Fits : FieldValue → Prop
  | .int value => Number.Is64Bit value
  | _ => True

def Shape : Json → Prop
  | .int value => Number.Is64Bit value
  | .bool _ | .str _ => True
  | .arr items => ∀ item ∈ items, item.IsString
  | .null | .real _ | .obj _ => False

def Denotes : Json → FieldValue → Prop
  | .int written, .int value => written = value ∧ Number.Is64Bit value
  | .bool written, .bool value => written = value
  | .str written, .text value => written = value
  | .arr items, .list texts => items = texts.map .str
  | _, _ => False

theorem reads_ofJson? (j : Json) : Json.Reads (ofJson? j) (Shape j) (Denotes j) := by
  cases j with
  | int written =>
    refine ⟨by simp [ofJson?, Shape, Number.clamp64_eq_iff], fun value => ?_⟩
    cases value <;> simp [ofJson?, Denotes, Number.clamp64_eq_iff]
    grind
  | arr items =>
    obtain ⟨haccepts, hreads⟩ := Json.reads_strings (.arr items)
    refine ⟨by rw [ofJson?, Option.isSome_map]; exact haccepts, fun value => ?_⟩
    cases value <;> simp [ofJson?, Denotes, hreads]
  | _ =>
    refine ⟨by simp [ofJson?, Shape], fun value => ?_⟩
    cases value <;> simp [ofJson?, Denotes]

theorem ofJson?_toJson (h : value.Fits) : ofJson? value.toJson = some value := by
  cases value with
  | int value => exact ofJson?_toJson_int (Number.clamp64_eq_iff.mpr h)
  | bool value => rfl
  | text value => rfl
  | list items =>
    rw [toJson, ofJson?, Json.list?_map Json.str? fun _ _ => rfl, Option.map_some]

theorem fits_of_denotes (h : Denotes j value) : value.Fits := by
  cases value with
  | int value =>
    cases j with
    | int written => exact h.2
    | _ => cases h
  | _ => trivial

end FieldValue

namespace Fields

variable {f g : Fields} {entries : List (String × FieldValue)} {members : List (String × Json)}
variable {key : String} {value : FieldValue}

def Fits (f : Fields) : Prop := ∀ e ∈ f.entries, e.2.Fits

theorem fits_empty : empty.Fits := List.forall_mem_nil _

def Shape : Json → Prop
  | .obj members => ∀ m ∈ members, FieldValue.Shape m.2
  | _ => False

def Denotes : Json → Fields → Prop
  | .obj members, f => Shape (.obj members) ∧ ∀ key value,
      (key, value) ∈ f.entries ↔ ∃ j, members.reverse.lookup key = some j ∧ FieldValue.Denotes j value
  | _, _ => False

theorem nodup_keys (f : Fields) : (f.entries.map Prod.fst).Nodup :=
  List.pairwise_map.mpr (f.sorted.imp String.ne_of_lt)

theorem ext_mem (h : ∀ e, e ∈ f.entries ↔ e ∈ g.entries) : f = g := by
  have hperm := (List.perm_ext_iff_of_nodup (.of_map _ f.nodup_keys) (.of_map _ g.nodup_keys)).mpr h
  have hentries : f.entries = g.entries :=
    hperm.eq_of_pairwise (fun _ _ _ _ hab hba => absurd hba (String.lt_asymm hab)) f.sorted g.sorted
  cases f
  cases g
  cases hentries
  rfl

theorem mem_insert {e : String × FieldValue} :
    e ∈ (f.insert key value).entries ↔ e = (key, value) ∨ e ∈ f.entries ∧ e.1 ≠ key := by
  have hne : e.1 ≠ key ↔ e.1 < key ∨ key < e.1 := by
    refine ⟨fun hne => ?_, fun h => h.elim String.ne_of_lt fun hgt => (String.ne_of_lt hgt).symm⟩
    by_contra hneither
    obtain ⟨hge, hle⟩ := not_or.mp hneither
    exact hne (String.le_antisymm (String.not_lt.mp hle) (String.not_lt.mp hge))
  simp only [insert, List.mem_append, List.mem_cons, List.mem_filter, decide_eq_true_eq, hne]
  tauto

theorem Fits.insert (hf : f.Fits) (hvalue : value.Fits) : (f.insert key value).Fits := by
  intro e he
  rcases mem_insert.mp he with rfl | ⟨he, -⟩
  · exact hvalue
  · exact hf e he

theorem mem_ofList : (key, value) ∈ (ofList entries).entries ↔ entries.reverse.lookup key = some value := by
  -- from the end, where the entry is that replaces the others of its key
  induction entries using List.reverseRecOn with
  | nil => simp [ofList, empty]
  | append_singleton entries e ih =>
    have hlast : ofList (entries ++ [e]) = (ofList entries).insert e.1 e.2 := by simp [ofList]
    rw [hlast, mem_insert, ih, List.reverse_append, List.reverse_singleton, List.singleton_append, List.lookup_cons]
    by_cases heq : key = e.1
    · simp [heq, Prod.ext_iff, eq_comm]
    · simp [beq_eq_false_iff_ne.mpr heq, heq, Prod.ext_iff]

theorem ofList_entries (f : Fields) : ofList f.entries = f := by
  refine ext_mem fun ⟨key, value⟩ => ?_
  have hnames : (f.entries.reverse.map Prod.fst).Nodup := by
    rw [List.map_reverse, List.nodup_reverse]
    exact f.nodup_keys
  rw [mem_ofList, lookup_eq_some_iff_mem hnames, List.mem_reverse]

def readMember? (m : String × Json) : Option (String × FieldValue) := (FieldValue.ofJson? m.2).map (m.1, ·)

theorem ofJson?_obj : ofJson? (.obj members) = (members.mapM readMember?).map ofList := by
  have hmember (m : String × Json) : (do return (m.1, ← FieldValue.ofJson? m.2)) = readMember? m := by
    rw [readMember?]
    cases FieldValue.ofJson? m.2 <;> rfl
  simp only [ofJson?, hmember]
  cases members.mapM readMember? <;> rfl

theorem readMember?_eq_some_iff {m : String × Json} {e : String × FieldValue} :
    readMember? m = some e ↔ m.1 = e.1 ∧ FieldValue.ofJson? m.2 = some e.2 := by
  cases hvalue : FieldValue.ofJson? m.2 <;> simp [readMember?, hvalue, Prod.ext_iff]

theorem lookup_of_entries (hentries : List.Forall₂ (fun m e => readMember? m = some e) members entries) (key : String) :
    entries.lookup key = (members.lookup key).bind FieldValue.ofJson? := by
  induction hentries with
  | nil => rfl
  | @cons m e members entries hfirst _ ih =>
    obtain ⟨hname, hvalue⟩ := readMember?_eq_some_iff.mp hfirst
    rw [List.lookup_cons, List.lookup_cons, hname, ih]
    split
    · exact hvalue.symm
    · rfl

theorem mem_entries_of_ofJson? (h : ofJson? (.obj members) = some f) : (key, value) ∈ f.entries ↔
    ∃ j, members.reverse.lookup key = some j ∧ FieldValue.Denotes j value := by
  obtain ⟨entries, hread, rfl⟩ := Option.map_eq_some_iff.mp (ofJson?_obj ▸ h)
  have hlast := lookup_of_entries (List.forall₂_reverse_iff.mpr (mapM_eq_some_iff.mp hread)) key
  simp only [mem_ofList, hlast, Option.bind_eq_some_iff, (FieldValue.reads_ofJson? _).reads]

theorem isSome_ofJson? (j : Json) : (ofJson? j).isSome ↔ Shape j := by
  cases j with
  | obj members =>
    rw [ofJson?_obj, Option.isSome_map, isSome_mapM]
    refine forall₂_congr fun m _ => ?_
    rw [readMember?, Option.isSome_map, (FieldValue.reads_ofJson? m.2).accepts]
  | _ => simp [ofJson?, Shape]

theorem reads_ofJson? (j : Json) : Json.Reads (ofJson? j) (Shape j) (Denotes j) := by
  refine ⟨isSome_ofJson? j, fun f => ?_⟩
  cases j with
  | obj members =>
    constructor
    · intro h
      exact ⟨(isSome_ofJson? _).mp (Option.isSome_of_eq_some h), fun key value => mem_entries_of_ofJson? h⟩
    · rintro ⟨hshape, hentries⟩
      -- something is read, and no other fields have these entries
      obtain ⟨g, hg⟩ := Option.isSome_iff_exists.mp ((isSome_ofJson? _).mpr hshape)
      have heq : g = f := ext_mem fun e => (mem_entries_of_ofJson? hg).trans (hentries e.1 e.2).symm
      rw [hg, heq]
  | _ => simp [ofJson?, Denotes]

theorem ofJson?_toJson (h : f.Fits) : ofJson? f.toJson = some f := by
  have hentries : (f.entries.map fun e => (e.1, e.2.toJson)).mapM readMember? = some f.entries := by
    rw [mapM_eq_some_iff, List.forall₂_map_left_iff, List.forall₂_same]
    exact fun e he => readMember?_eq_some_iff.mpr ⟨rfl, FieldValue.ofJson?_toJson (h e he)⟩
  rw [toJson, ofJson?_obj, hentries, Option.map_some, ofList_entries]

theorem fits_of_ofJson? {j : Json} (h : ofJson? j = some f) : f.Fits := by
  intro e he
  have hdenotes := (reads_ofJson? j).reads f |>.mp h
  cases j with
  | obj members =>
    obtain ⟨j, -, hvalue⟩ := (hdenotes.2 e.1 e.2).mp he
    exact FieldValue.fits_of_denotes hvalue
  | _ => cases h

end Fields

end FrameTable
