import FrameTable.Proofs.Json.Fields

/-!
The JSON form of sections and batches. What is written is read back; what is accepted is told by the shape of the
parts, and what is read by what the members with known keys denote.
-/

namespace FrameTable

namespace Section

variable {j : Json} {s : Section} {members : List (String × Json)}

def Fits (s : Section) : Prop := s.fields.Fits

def Shape : Json → Prop
  | .obj members =>
      (∃ title, ("title", title) ∈ members ∧ title.IsString) ∧
        ∀ fields, ("fields", fields) ∈ members → Fields.Shape fields
  | _ => False

def Denotes : Json → Section → Prop
  | .obj members, s =>
      ("title", .str s.title) ∈ members ∧ Json.MemberDenotes members "fields" Fields.Denotes .empty s.fields
  | _, _ => False

theorem ofJson?_eq_some_iff : ofJson? j = some s ↔ ∃ members, j.record? ["title", "fields"] = some members ∧
    Json.member? members "title" Json.str? none = some s.title ∧
      Json.member? members "fields" Fields.ofJson? (some .empty) = some s.fields := by
  obtain ⟨title, fields⟩ := s
  simp [ofJson?, Option.bind_eq_some_iff]

theorem isSome_ofJson?_obj : (ofJson? (.obj members)).isSome ↔ (Json.member? members "title" Json.str? none).isSome ∧
    (Json.member? members "fields" Fields.ofJson? (some .empty)).isSome := by
  simp only [Option.isSome_iff_exists, ofJson?_eq_some_iff]
  constructor
  · rintro ⟨s, _, ⟨⟩, htitle, hfields⟩
    exact ⟨⟨_, htitle⟩, _, hfields⟩
  · rintro ⟨⟨title, htitle⟩, fields, hfields⟩
    exact ⟨⟨title, fields⟩, members, rfl, htitle, hfields⟩

theorem reads_ofJson? (hnamed : j.Named) : Json.Reads (ofJson? j) (Shape j) (Denotes j) := by
  cases j with
  | obj members =>
    have htitle := Json.reads_member hnamed "title" fun j _ => Json.reads_str? j
    have hfields := Json.reads_member_or hnamed "fields" .empty fun j _ => Fields.reads_ofJson? j
    constructor
    · rw [Shape, isSome_ofJson?_obj, htitle.accepts, hfields.accepts]
    · intro s
      simp [ofJson?_eq_some_iff, Json.record?, htitle.reads, hfields.reads, Denotes]
  | arr items => exact hnamed.elim
  | _ => constructor <;> simp [ofJson?, Json.record?, Shape, Denotes]

theorem ofJson?_toJson (h : s.Fits) : ofJson? s.toJson = some s := by
  simp [ofJson?, toJson, Json.record?, Json.member?, List.lookup_cons, Json.str?, Fields.ofJson?_toJson h]

theorem fits_of_ofJson? (h : ofJson? j = some s) : s.Fits := by
  obtain ⟨members, -, -, hfields⟩ := ofJson?_eq_some_iff.mp h
  exact Json.member?_spec (fun _ _ => Fields.fits_of_ofJson?) Fields.fits_empty hfields

end Section

namespace Batch

variable {j : Json} {b : Batch} {members : List (String × Json)}

def kinds : List (String × (Batch → List Section)) :=
  [("thingtypes", things), ("sounds", sounds), ("strings", strings), ("frames", frames), ("framedeltas", deltas)]

def Fits (b : Batch) : Prop := ∀ kind ∈ kinds, ∀ s ∈ kind.2 b, s.Fits

def Named (j : Json) : Prop :=
  ∃ members, j = .obj members ∧ (members.map Prod.fst).Nodup ∧
    ∀ kind ∈ kinds, ∀ items, (kind.1, .arr items) ∈ members → ∀ item ∈ items, item.Named

def Shape : Json → Prop
  | .obj members =>
      (∀ names, ("sprites", names) ∈ members → names.ListOf Json.IsString) ∧
        ∀ kind ∈ kinds, ∀ sections, (kind.1, sections) ∈ members → sections.ListOf Section.Shape
  | _ => False

def Denotes : Json → Batch → Prop
  | .obj members, b =>
      Json.MemberDenotes members "sprites" (fun j names => j = .arr (names.map .str)) [] b.sprites ∧
        ∀ kind ∈ kinds, Json.MemberDenotes members kind.1 (Json.ListDenotes Section.Denotes) [] (kind.2 b)
  | _, _ => False

def keys : List String := ["sprites", "thingtypes", "sounds", "strings", "frames", "framedeltas"]

theorem ofJson?_eq_some_iff : ofJson? j = some b ↔
    ∃ members, j.record? keys = some members ∧
      Json.member? members "sprites" (Json.list? Json.str?) (some []) = some b.sprites ∧
        ∀ kind ∈ kinds, Json.member? members kind.1 (Json.list? Section.ofJson?) (some []) = some (kind.2 b) := by
  obtain ⟨sprites, things, sounds, strings, frames, deltas⟩ := b
  simp [ofJson?, keys, kinds, Option.bind_eq_some_iff]

theorem isSome_ofJson?_obj : (ofJson? (.obj members)).isSome ↔
    (Json.member? members "sprites" (Json.list? Json.str?) (some [])).isSome ∧
      ∀ kind ∈ kinds, (Json.member? members kind.1 (Json.list? Section.ofJson?) (some [])).isSome := by
  simp only [Option.isSome_iff_exists, ofJson?_eq_some_iff]
  constructor
  · rintro ⟨b, _, ⟨⟩, hsprites, hkinds⟩
    exact ⟨⟨_, hsprites⟩, fun kind hkind => ⟨_, hkinds kind hkind⟩⟩
  · simp only [kinds, List.forall_mem_cons]
    rintro ⟨⟨sprites, hsprites⟩, ⟨things, hthings⟩, ⟨sounds, hsounds⟩, ⟨strings, hstrings⟩, ⟨frames, hframes⟩,
      ⟨deltas, hdeltas⟩, -⟩
    exact ⟨⟨sprites, things, sounds, strings, frames, deltas⟩, members, rfl, hsprites, hthings, hsounds, hstrings,
      hframes, hdeltas, List.forall_mem_nil _⟩

theorem reads_ofJson? (hnamed : Named j) : Json.Reads (ofJson? j) (Shape j) (Denotes j) := by
  obtain ⟨members, rfl, hnames, hsections⟩ := hnamed
  have hsprites := Json.reads_member_or hnames "sprites" [] fun j _ => Json.reads_strings j
  have hkind (kind) (hkind : kind ∈ kinds) := Json.reads_member_or hnames kind.1 [] fun j hmem =>
    Json.reads_list? fun items heq item hitem =>
      Section.reads_ofJson? (hsections kind hkind items (heq ▸ hmem) item hitem)
  constructor
  · rw [isSome_ofJson?_obj, hsprites.accepts, Shape]
    exact and_congr_right' (forall₂_congr fun kind hmem => (hkind kind hmem).accepts)
  · intro b
    have hkinds := forall₂_congr fun kind hmem => (hkind kind hmem).reads (kind.2 b)
    simp only [ofJson?_eq_some_iff, Json.record?, Option.some.injEq, exists_eq_left', hsprites.reads, hkinds, Denotes]

theorem ofJson?_toJson (h : b.Fits) : ofJson? b.toJson = some b := by
  have hkind (kind) (hkind : kind ∈ kinds) :
      Json.list? Section.ofJson? (.arr ((kind.2 b).map Section.toJson)) = some (kind.2 b) :=
    Json.list?_map _ fun s hs => Section.ofJson?_toJson (h kind hkind s hs)
  have hsprites : Json.list? Json.str? (.arr (b.sprites.map .str)) = some b.sprites :=
    Json.list?_map _ fun _ _ => rfl
  simp only [kinds, List.forall_mem_cons] at hkind
  refine ofJson?_eq_some_iff.mpr ⟨_, rfl, ?_⟩
  simpa [Json.member?, List.lookup_cons, kinds, hsprites] using hkind

theorem fits_of_ofJson? (h : ofJson? j = some b) : b.Fits := by
  obtain ⟨members, -, -, hkinds⟩ := ofJson?_eq_some_iff.mp h
  intro kind hkind
  have hread (j : Json) (sections : List Section) (hsections : j.list? Section.ofJson? = some sections) :
      ∀ s ∈ sections, s.Fits :=
    Json.list?_spec (fun _ _ => Section.fits_of_ofJson?) hsections
  exact Json.member?_spec hread (List.forall_mem_nil _) (hkinds kind hkind)

theorem named_toJson (b : Batch) : Named b.toJson := by
  refine ⟨_, rfl, by simp, fun kind hkind items hmem item hitem => ?_⟩
  have hwritten : ∃ sections : List Section, items = sections.map Section.toJson := by
    simp only [kinds, List.mem_cons, List.not_mem_nil, or_false] at hkind
    rcases hkind with rfl | rfl | rfl | rfl | rfl <;> simp at hmem <;> exact ⟨_, hmem⟩
  obtain ⟨sections, rfl⟩ := hwritten
  obtain ⟨s, -, rfl⟩ := List.mem_map.mp hitem
  simp [Section.toJson, Json.Named]

/-- A batch that is written and read again is the same, if its integers take 64 bits. A record by name is accepted
when the parts with known keys have their shapes, and then they alone tell which batch is read. What was read, from
any value at all, is unchanged by writing and reading it again. -/
theorem json_faithful :
    (∀ b : Batch, b.Fits → ofJson? b.toJson = some b) ∧
    (∀ j, Named j → ((ofJson? j).isSome ↔ Shape j)) ∧
    (∀ j b, Named j → (ofJson? j = some b ↔ Denotes j b)) ∧
    ∀ j b, ofJson? j = some b → b.Fits ∧ Named b.toJson ∧ ofJson? b.toJson = some b := by
  refine ⟨fun _ => ofJson?_toJson, fun _ h => (reads_ofJson? h).accepts, fun _ b h => (reads_ofJson? h).reads b, ?_⟩
  intro j b h
  have hfits := fits_of_ofJson? h
  exact ⟨hfits, named_toJson b, ofJson?_toJson hfits⟩

def sampleFields : Fields :=
  (Fields.empty.insert "tics" (.int (-9223372036854775808))).insert "args" (.list [])

def sample : Batch where
  sprites := ["PLAY"]
  things := [{ title := "MT_PLAYER" }]
  frames := [{ title := "S_RUN", fields := sampleFields }]

theorem json_faithful_sample : sample.Fits ∧ Named sample.toJson ∧ ofJson? sample.toJson = some sample ∧
    Denotes sample.toJson sample := by
  have hfits : sample.Fits := by
    have hleast : (FieldValue.int (-9223372036854775808)).Fits := ⟨by decide, by decide⟩
    have hrun : sampleFields.Fits := (Fields.fits_empty.insert hleast).insert trivial
    simp only [Fits, kinds, List.forall_mem_cons]
    exact ⟨List.forall_mem_singleton.mpr Fields.fits_empty, List.forall_mem_nil _, List.forall_mem_nil _,
      List.forall_mem_singleton.mpr hrun, List.forall_mem_nil _, List.forall_mem_nil _⟩
  have hnamed := named_toJson sample
  have hread := json_faithful.1 sample hfits
  exact ⟨hfits, hnamed, hread, (json_faithful.2.2.1 _ _ hnamed).mp hread⟩

end Batch

end FrameTable
