import Mathlib.Order.Defs.Unbundled
import FrameTable.Proofs.Load.Placement
import FrameTable.Proofs.Tables.Soundness

namespace FrameTable.Tables

variable {t t' : Tables} {first : Bool} {b : Batch} {titles : List String} {slot : Nat}

structure Redefines (first : Bool) (b : Batch) (t t' : Tables) : Prop where
  frames : t.frames.Redefines (b.frames.map (·.title)) t'.frames
  things : t.things.Redefines (b.things.map (·.title)) t'.things
  sounds : t.sounds.Redefines (b.sounds.map (·.title)) t'.sounds
  strings : t.strings.Redefines (b.strings.map (·.title)) t'.strings
  sprites : t.sprites.KeepsNames t'.sprites
  nullFrame : first = false → t'.nullFrame = t.nullFrame
  sound : t.Sound → t'.Sound

instance : Std.Refl (Redefines first b) where
  refl _ :=
    { frames := .refl _ _, things := .refl _ _, sounds := .refl _ _, strings := .refl _ _
      sprites := fun hname => hname, nullFrame := fun _ => rfl, sound := fun ht => ht }

instance : IsTrans Tables (Redefines first b) where
  trans _ _ _ h h' :=
    { frames := h.frames.trans h'.frames
      things := h.things.trans h'.things
      sounds := h.sounds.trans h'.sounds
      strings := h.strings.trans h'.strings
      sprites := fun hname => h'.sprites (h.sprites hname)
      nullFrame := fun hfirst => (h'.nullFrame hfirst).trans (h.nullFrame hfirst)
      sound := fun ht => h'.sound (h.sound ht) }

structure Amends (titles : List String) (t t' : Tables) : Prop where
  frames : t.frames.Amends titles t'.frames
  things : t.things.Amends [] t'.things
  sounds : t.sounds.Amends [] t'.sounds
  strings : t'.strings = t.strings
  sprites : t.sprites.KeepsNames t'.sprites
  frames_le : t.frames.size ≤ t'.frames.size
  sprites_le : t.sprites.names.size ≤ t'.sprites.names.size
  nullFrame : t'.nullFrame = t.nullFrame
  ready : t.Ready → t'.Ready

instance : Std.Refl (Amends titles) where
  refl _ :=
    { frames := .refl _ _, things := .refl _ _, sounds := .refl _ _, strings := rfl
      sprites := fun hname => hname, frames_le := Nat.le_refl _, sprites_le := Nat.le_refl _
      nullFrame := rfl, ready := fun ht => ht }

instance : IsTrans Tables (Amends titles) where
  trans _ _ _ h h' :=
    { frames := h.frames.trans h'.frames
      things := h.things.trans h'.things
      sounds := h.sounds.trans h'.sounds
      strings := h'.strings.trans h.strings
      sprites := fun hname => h'.sprites (h.sprites hname)
      frames_le := Nat.le_trans h.frames_le h'.frames_le
      sprites_le := Nat.le_trans h.sprites_le h'.sprites_le
      nullFrame := h'.nullFrame.trans h.nullFrame
      ready := fun ht => h'.ready (h.ready ht) }

namespace Sound

variable (h : t.Sound)
include h

theorem withFrames {frames : Catalog Frame} (hframes : frames.Consistent)
    (hrecord : ∀ {i f}, frames.get? i = some f →
      f.index = i ∧ f.RefersWithin frames.size t.sprites.names.size) : ({ t with frames } : Tables).Sound :=
  { h with
    frames := hframes
    index_eq := fun hf => (hrecord hf).1
    refers := fun hf => (hrecord hf).2 }

theorem withSprite (name : String) : ({ t with sprites := (t.sprites.define name).2 } : Tables).Sound := by
  obtain ⟨hsprites, hsize, -, -⟩ := h.sprites.define name
  exact { h with sprites := hsprites, refers := fun hf => (h.refers hf).mono (Nat.le_refl _) hsize }

theorem withThings {things : Catalog Thing} (hthings : things.Consistent) (hnames : t.things.KeepsNames things) :
    ({ t with things } : Tables).Sound :=
  { h with things := hthings, unknownThing := hnames h.unknownThing }

theorem withSounds {sounds : Catalog FrameTable.Sound} (hsounds : sounds.Consistent)
    (hnames : t.sounds.KeepsNames sounds) : ({ t with sounds } : Tables).Sound :=
  { h with sounds := hsounds, nullSound := hnames h.nullSound }

theorem redefines_nullFrame (nullFrame : Nat) : Redefines true b t { t with nullFrame } :=
  { frames := .refl _ _, things := .refl _ _, sounds := .refl _ _, strings := .refl _ _
    sprites := fun hname => hname, nullFrame := nofun
    sound := fun _ => { h with } }

theorem redefines_sprite (name : String) : Redefines first b t { t with sprites := (t.sprites.define name).2 } :=
  { frames := .refl _ _, things := .refl _ _, sounds := .refl _ _, strings := .refl _ _
    sprites := (h.sprites.define name).2.2.1, nullFrame := fun _ => rfl
    sound := fun _ => h.withSprite name }

theorem redefines_thing {s : Section} (hmem : s ∈ b.things) {things : Catalog Thing}
    (hdefine : t.things.define (.ofSection s) = .ok (slot, things)) : Redefines first b t { t with things } := by
  have hmention : Mentions (b.things.map (·.title)) (Record.name (Thing.ofSection s)) :=
    ⟨s.title, List.mem_map_of_mem hmem, Text.same_refl _⟩
  have hredefines := h.things.redefines_define hmention hdefine
  exact
    { frames := .refl _ _, things := hredefines, sounds := .refl _ _, strings := .refl _ _
      sprites := fun hname => hname, nullFrame := fun _ => rfl
      sound := fun _ => h.withThings (h.things.define hdefine).1 hredefines.names }

theorem redefines_sound {s : Section} (hmem : s ∈ b.sounds) {sounds : Catalog FrameTable.Sound}
    (hdefine : t.sounds.define (.ofSection s) = .ok (slot, sounds)) : Redefines first b t { t with sounds } := by
  have hmention : Mentions (b.sounds.map (·.title)) (Record.name (FrameTable.Sound.ofSection s)) :=
    ⟨s.title, List.mem_map_of_mem hmem, Text.same_refl _⟩
  have hredefines := h.sounds.redefines_define hmention hdefine
  exact
    { frames := .refl _ _, things := .refl _ _, sounds := hredefines, strings := .refl _ _
      sprites := fun hname => hname, nullFrame := fun _ => rfl
      sound := fun _ => h.withSounds (h.sounds.define hdefine).1 hredefines.names }

theorem redefines_string {s : Section} (hmem : s ∈ b.strings) {strings : Catalog Message}
    (hdefine : t.strings.define (.ofSection s) = .ok (slot, strings)) : Redefines first b t { t with strings } := by
  have hmention : Mentions (b.strings.map (·.title)) (Record.name (Message.ofSection s)) :=
    ⟨s.title, List.mem_map_of_mem hmem, Text.same_refl _⟩
  exact
    { frames := .refl _ _, things := .refl _ _, sounds := .refl _ _
      strings := h.strings.redefines_define hmention hdefine
      sprites := fun hname => hname, nullFrame := fun _ => rfl
      sound := fun _ => { h with strings := (h.strings.define hdefine).1 } }

theorem redefines_place {frames : Catalog Frame} (hplace : Load.placeFrames t.frames b.frames = .ok frames) :
    Redefines first b t { t with frames } := by
  obtain ⟨hframes, hsize, hredefines, horigin⟩ := Load.placeFrames_eq_ok h.frames hplace
  refine
    { frames := hredefines, things := .refl _ _, sounds := .refl _ _, strings := .refl _ _
      sprites := fun hname => hname, nullFrame := fun _ => rfl
      sound := fun _ => h.withFrames hframes fun {i f} hf => ?_ }
  have hpos : 0 < frames.size := Nat.zero_lt_of_lt (Catalog.lt_size_of_get? hf)
  rcases horigin hf with ⟨f, id, hold, rfl⟩ | ⟨-, s, id, rfl⟩
  · have hindex : f.index = i := h.index_eq hold
    obtain ⟨hnext, hsprite, haction⟩ := (h.refers hold).mono hsize (Nat.le_refl _)
    exact ⟨hindex, hnext, hsprite, haction⟩
  · exact ⟨rfl, hpos, h.sprites.blank_lt, nofun⟩

end Sound

def Named (titles : List String) (t : Tables) (slot : Nat) : Prop :=
  ∃ f, t.frames.get? slot = some f ∧ Mentions titles f.name

theorem Named.lt_size (h : t.Named titles slot) : slot < t.frames.size := by
  obtain ⟨f, hf, -⟩ := h
  exact Catalog.lt_size_of_get? hf

structure Writable (titles : List String) (t : Tables) (slot : Nat) : Prop extends Ready t where
  named : t.Named titles slot

def Edits (t : Tables) (g : Frame → Frame) : Prop :=
  ∀ f, (g f).index = f.index ∧ Catalog.identity (g f) = Catalog.identity f ∧ (t.Refers f → t.Refers (g f))

theorem edits_of_eq {g : Frame → Frame} (hg : ∀ f, (g f).index = f.index ∧
    Catalog.identity (g f) = Catalog.identity f ∧ ((g f).next, (g f).sprite, (g f).action) =
      (f.next, f.sprite, f.action)) : t.Edits g := by
  intro f
  obtain ⟨hindex, hidentity, href⟩ := hg f
  simp only [Prod.mk.injEq] at href
  obtain ⟨hnext, hsprite, haction⟩ := href
  refine ⟨hindex, hidentity, fun hf => ⟨hnext ▸ hf.next_lt, hsprite ▸ hf.sprite_lt, fun hposition => ?_⟩⟩
  rw [haction] at hposition
  exact hf.action hposition

namespace Ready

variable (h : t.Ready)
include h

theorem writable {title : String} (hname : t.frames.slotNamed? title = some slot) (hmem : title ∈ titles) :
    t.Writable titles slot := by
  obtain ⟨f, hf, hsame⟩ := h.frames.slotNamed?_eq_some_iff.mp hname
  exact { h with named := ⟨f, hf, title, hmem, Text.same_comm _ _ ▸ hsame⟩ }

theorem withFrames {frames : Catalog Frame} (hframes : frames.Consistent)
    (hnames : t.frames.KeepsNames frames)
    (hrecord : ∀ {i f}, frames.get? i = some f →
      f.index = i ∧ f.RefersWithin frames.size t.sprites.names.size) : ({ t with frames } : Tables).Ready where
  toSound := h.toSound.withFrames hframes hrecord
  nullFrame := hnames h.nullFrame

theorem amends_frames {frames : Catalog Frame} (hframes : frames.Consistent)
    (hamends : t.frames.Amends titles frames) (hsize : t.frames.size ≤ frames.size)
    (hrecord : ∀ {i f}, frames.get? i = some f →
      f.index = i ∧ f.RefersWithin frames.size t.sprites.names.size) : Amends titles t { t with frames } :=
  { frames := hamends, things := .refl _ _, sounds := .refl _ _, strings := rfl
    sprites := fun hname => hname, frames_le := hsize, sprites_le := Nat.le_refl _, nullFrame := rfl
    ready := fun _ => h.withFrames hframes hamends.names hrecord }

theorem amends_sprite (name : String) : Amends titles t { t with sprites := (t.sprites.define name).2 } :=
  { frames := .refl _ _, things := .refl _ _, sounds := .refl _ _, strings := rfl
    sprites := (h.sprites.define name).2.2.1, frames_le := Nat.le_refl _
    sprites_le := (h.sprites.define name).2.1, nullFrame := rfl
    ready := fun _ => { toSound := h.toSound.withSprite name, nullFrame := h.nullFrame } }

theorem amends_frameId (hslot : slot < t.frames.size) :
    Amends titles t { t with frames := (t.frames.claimId slot).2 } := by
  obtain ⟨f, hf⟩ := Store.exists_get? hslot
  obtain ⟨hframes, hamends, hsize, horigin⟩ := h.frames.amends_claimId hf
  refine h.amends_frames hframes hamends (Nat.le_of_eq hsize.symm) fun {i f'} hf' => ?_
  obtain ⟨f, id, hold, rfl⟩ := horigin hf'
  have hindex : f.index = i := h.index_eq hold
  obtain ⟨hnext, hsprite, haction⟩ := h.refers hold
  exact ⟨hindex, hsize ▸ hnext, hsprite, haction⟩

theorem amends_thingId (hslot : slot < t.things.size) :
    Amends titles t { t with things := (t.things.claimId slot).2 } := by
  obtain ⟨e, he⟩ := Store.exists_get? hslot
  obtain ⟨hthings, hamends, -⟩ := h.things.amends_claimId he
  exact
    { frames := .refl _ _, things := hamends, sounds := .refl _ _, strings := rfl
      sprites := fun hname => hname, frames_le := Nat.le_refl _, sprites_le := Nat.le_refl _, nullFrame := rfl
      ready := fun _ => { toSound := h.toSound.withThings hthings hamends.names, nullFrame := h.nullFrame } }

theorem amends_soundId (hslot : slot < t.sounds.size) :
    Amends titles t { t with sounds := (t.sounds.claimId slot).2 } := by
  obtain ⟨e, he⟩ := Store.exists_get? hslot
  obtain ⟨hsounds, hamends, -⟩ := h.sounds.amends_claimId he
  exact
    { frames := .refl _ _, things := .refl _ _, sounds := hamends, strings := rfl
      sprites := fun hname => hname, frames_le := Nat.le_refl _, sprites_le := Nat.le_refl _, nullFrame := rfl
      ready := fun _ => { toSound := h.toSound.withSounds hsounds hamends.names, nullFrame := h.nullFrame } }

theorem amends_addFrame {entry : Frame} {frames : Catalog Frame}
    (hdefine : t.frames.define entry = .ok (slot, frames)) (hnew : t.frames.slotNamed? entry.name = none)
    (hindex : entry.index = t.frames.size) (hneg : entry.legacyId < 0) (hrefers : t.Refers entry) :
    Amends titles t { t with frames } ∧ slot < frames.size := by
  obtain ⟨hframes, hsize, -, hget, hslot⟩ := h.frames.define hdefine
  have hslot : slot = t.frames.size := by
    rcases hslot with hknown | ⟨-, hslot⟩
    · exact absurd (hnew.symm.trans hknown) nofun
    · exact hslot
  refine ⟨h.amends_frames hframes (h.frames.amends_define hnew hneg hdefine) hsize fun {i f} hf => ?_, ?_⟩
  · rw [hget] at hf
    split at hf
    · next hi =>
      obtain rfl := Option.some.inj hf
      exact ⟨by omega, hrefers.mono hsize (Nat.le_refl _)⟩
    · exact ⟨h.index_eq hf, (h.refers hf).mono hsize (Nat.le_refl _)⟩
  · exact Catalog.lt_size_of_get? ((hget slot).trans (if_pos rfl))

end Ready

theorem Writable.amends_edit (h : t.Writable titles slot) {g : Frame → Frame} (hg : t.Edits g) :
    Amends titles t { t with frames := t.frames.modify slot g } := by
  obtain ⟨f₀, hf₀, hmention⟩ := h.named
  have hmem : ∀ {f}, t.frames.get? slot = some f → Mentions titles (Record.name f) := fun hf =>
    Option.some.inj (hf₀.symm.trans hf) ▸ hmention
  obtain ⟨hframes, hamends⟩ := h.frames.amends_modify (fun f => (hg f).2.1) hmem
  have hsize : (t.frames.modify slot g).size = t.frames.size := Store.size_modify _ _ _
  refine h.amends_frames hframes hamends (Nat.le_of_eq hsize.symm) fun {i f} hf => ?_
  have hold : ∃ f', t.frames.get? i = some f' ∧ (f = f' ∨ f = g f') := by
    rw [Catalog.get?, Catalog.modify, Store.get?_modify] at hf
    split at hf
    · obtain ⟨f', hf', rfl⟩ := Option.map_eq_some_iff.mp hf
      exact ⟨f', hf', .inr rfl⟩
    · exact ⟨f, hf, .inl rfl⟩
  obtain ⟨f', hf', rfl | rfl⟩ := hold
  · exact ⟨h.index_eq hf', hsize ▸ h.refers hf'⟩
  · exact ⟨(hg f').1.trans (h.index_eq hf'), hsize ▸ (hg f').2.2 (h.refers hf')⟩

theorem Ready.modify (h : t.Ready) {g : Frame → Frame} (hg : t.Edits g) (slot : Nat) :
    ({ t with frames := t.frames.modify slot g } : Tables).Ready := by
  cases hf : t.frames.get? slot with
  | some f =>
    have hself : Mentions [f.name] f.name := ⟨f.name, List.mem_singleton.mpr rfl, Text.same_refl _⟩
    have hwritable : t.Writable [f.name] slot := { h with named := ⟨f, hf, hself⟩ }
    exact (hwritable.amends_edit hg).ready h
  | none =>
    have hstore : t.frames.store.modify slot g = t.frames.store :=
      Store.modify_eq_self fun f hf' => by cases hf.symm.trans hf'
    rw [Catalog.modify, hstore]
    exact h

theorem Ready.map (h : t.Ready) {g : Frame → Frame} (hg : t.Edits g) :
    ({ t with frames := t.frames.map g } : Tables).Ready := by
  have hsize : (t.frames.map g).size = t.frames.size := Store.size_map _ _
  have hget : ∀ i, (t.frames.map g).get? i = (t.frames.get? i).map g := fun i => Store.get?_map _ _ _
  have hframes : (t.frames.map g).Consistent := by
    rw [Catalog.Consistent, hsize]
    refine h.frames.congr rfl rfl fun i _ => ?_
    rw [hget, Option.map_map]
    exact congrArg (Option.map · _) (funext fun f => (hg f).2.1)
  refine h.withFrames hframes (fun hname => hname) fun {i f} hf => ?_
  rw [hget] at hf
  obtain ⟨f', hf', rfl⟩ := Option.map_eq_some_iff.mp hf
  exact ⟨(hg f').1.trans (h.index_eq hf'), hsize ▸ (hg f').2.2 (h.refers hf')⟩

theorem Amends.writable (hR : Amends titles t t') (h : t.Writable titles slot) : t'.Writable titles slot := by
  have h' := hR.ready h.toReady
  obtain ⟨f, hf, hmention⟩ := h.named
  obtain ⟨f', hf', hsame⟩ :=
    h'.frames.slotNamed?_eq_some_iff.mp (hR.frames.names (h.frames.slotNamed?_name hf))
  exact { h' with named := ⟨f', hf', (Mentions.congr hsame).mpr hmention⟩ }

end FrameTable.Tables
