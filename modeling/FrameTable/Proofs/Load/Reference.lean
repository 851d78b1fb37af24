import FrameTable.Load.Reference
import FrameTable.Proofs.Load.Follows
import FrameTable.Proofs.Tables.Evolution

namespace FrameTable

namespace Load

open Tables (Amends)

variable {titles : List String} {t : Tables} {slot : Nat} {frame : String} {s : Section} {w : Writing}

theorem claimId_follows {ε : Type} [Record ε] {kind : Kind} {get : Tables → Catalog ε}
    {put : Tables → Catalog ε → Tables} {fallback : Tables → Int}
    (h : Amends titles t (put t ((get t).claimId slot).2)) :
    Update.Follows (Amends titles) t (claimId kind get put fallback slot) fun _ _ => True := by
  refine .tables_bind ?_
  cases hclaim : (get t).claimId slot with
  | mk result catalog =>
    rw [hclaim] at h
    refine .setTables_bind h ?_
    cases result with
    | ok number => exact .pure trivial
    | error error => exact .warn_bind (.pure trivial)

theorem frameValue_follows (h : t.Ready) (hslot : slot < t.frames.size) :
    Update.Follows (Amends titles) t (frameValue slot) fun _ _ => True :=
  claimId_follows (h.amends_frameId hslot)

theorem thingValue_follows (h : t.Ready) (hslot : slot < t.things.size) :
    Update.Follows (Amends titles) t (thingValue slot) fun _ _ => True :=
  claimId_follows (h.amends_thingId hslot)

theorem soundValue_follows (h : t.Ready) (hslot : slot < t.sounds.size) :
    Update.Follows (Amends titles) t (soundValue slot) fun _ _ => True :=
  claimId_follows (h.amends_soundId hslot)

theorem stringValue_follows {name : String} :
    Update.Follows (Amends titles) t (stringValue name) fun _ _ => True := by
  refine .tables_bind ?_
  simp only
  split
  · exact .warn_bind (.pure trivial)
  · exact .pure trivial

theorem labelledValue_follows (h : t.Ready) {label : MiscLabel} {name : String} :
    Update.Follows (Amends titles) t (labelledValue label name) fun _ _ => True := by
  refine .tables_bind ?_
  cases label with
  | frame =>
    cases hname : t.frames.slotNamed? name with
    | some slot => exact frameValue_follows h (h.frames.lt_of_slotNamed? hname)
    | none => exact .warn_bind (.pure trivial)
  | thing =>
    cases hname : t.things.slotNamed? name with
    | some slot => exact thingValue_follows h (h.things.lt_of_slotNamed? hname)
    | none => exact .warn_bind (.pure trivial)
  | sound =>
    cases hname : t.sounds.slotNamed? name with
    | some slot => exact soundValue_follows h (h.sounds.lt_of_slotNamed? hname)
    | none => exact .warn_bind (soundValue_follows h (h.sounds.lt_of_slotNamed? h.nullSound))
  | flags word => exact .pure trivial
  | codePointer =>
    cases hname : CodePointer.find? name with
    | some position => exact .pure trivial
    | none => exact .warn_bind (.pure trivial)
  | string => exact stringValue_follows

theorem bareValue_follows (h : t.Ready) {name : String} :
    Update.Follows (Amends titles) t (bareValue name) fun _ _ => True := by
  refine .tables_bind ?_
  split
  · next slot hname => exact thingValue_follows h (h.things.lt_of_slotNamed? hname)
  split
  · next slot hname => exact frameValue_follows h (h.frames.lt_of_slotNamed? hname)
  split
  · next slot hname => exact soundValue_follows h (h.sounds.lt_of_slotNamed? hname)
  split
  · exact stringValue_follows
  split
  · exact .pure trivial
  · exact .warn_bind (.pure trivial)

theorem miscValue_follows (h : t.Ready) {token : String} :
    Update.Follows (Amends titles) t (miscValue token) fun _ _ => True := by
  unfold miscValue
  split
  · exact .warn_bind (.pure trivial)
  · split
    · exact labelledValue_follows h
    · exact .warn_bind (.pure trivial)
  · split
    · exact .pure trivial
    · exact bareValue_follows h

theorem spriteNamed_follows (h : t.Ready) {name : String} :
    Update.Follows (Amends titles) t (spriteNamed frame name) fun sprite t' => sprite < t'.sprites.names.size := by
  unfold spriteNamed
  split
  · exact .pure h.sprites.blank_lt
  refine .tables_bind ?_
  split
  · next slot sprites hdefine =>
    obtain rfl : (t.sprites.define name).2 = sprites := by rw [hdefine]
    have hlt := (h.sprites.define name).2.2.2 slot (by rw [hdefine])
    exact .setTables_bind (h.amends_sprite name) (.pure hlt)
  · exact .warn_bind (.pure h.sprites.blank_lt)

theorem addFrame_follows (h : t.Ready) {name : String} (hnew : t.frames.slotNamed? name = none) :
    Follows (Amends titles) t (addFrame frame name) fun next t' => next < t'.frames.size := by
  refine .tables_bind (.ofCatalog_bind fun (slot, frames) hdefine => ?_)
  have hrefers : t.Refers { index := t.frames.size, name, legacyId := -1, next := t.nullFrame } :=
    ⟨h.nullFrame_lt, h.sprites.blank_lt, nofun⟩
  obtain ⟨hamends, hlt⟩ := h.amends_addFrame hdefine hnew rfl (by decide : (-1 : Int) < 0) hrefers
  exact .setTables_bind hamends (.warn_bind (.pure hlt))

end Load

theorem Successor.lt_of_slot? {t : Tables} {slot next : Nat} {successor : Successor} (h : t.Ready)
    (hslot : slot < t.frames.size) (hnext : successor.slot? t slot = some next) : next < t.frames.size := by
  cases successor with
  | next =>
    simp only [slot?] at hnext
    split at hnext
    · obtain rfl := Option.some.inj hnext
      omega
    · cases hnext
  | previous =>
    simp only [slot?] at hnext
    split at hnext
    · obtain rfl := Option.some.inj hnext
      omega
    · cases hnext
  | this => exact Option.some.inj hnext ▸ hslot
  | null => exact Option.some.inj hnext ▸ h.nullFrame_lt

theorem actionOf_eq_ok {frame name : String} {action : Option Nat} (h : actionOf frame name = .ok action)
    {position : Nat} (hposition : action = some position) :
    position < CodePointer.mnemonics.length ∧ position ≠ CodePointer.null := by
  unfold actionOf at h
  split at h
  · cases h
  · next found hfind =>
    obtain rfl := Except.ok.inj h
    split at hposition
    · cases hposition
    · next hne =>
      obtain rfl := Option.some.inj hposition
      exact ⟨(List.findIdx?_eq_some_iff_findIdx_eq.mp hfind).1, hne⟩

namespace Load

open Tables (Amends)

variable {titles : List String} {t : Tables} {slot : Nat} {frame : String} {s : Section} {w : Writing}

theorem nextFrame_follows (h : t.Ready) (hslot : slot < t.frames.size) {target : String} :
    Follows (Amends titles) t (nextFrame slot frame target) fun next t' => next < t'.frames.size := by
  refine .tables_bind ?_
  split
  · split
    · next next hnext =>
      obtain ⟨successor, -, hslot?⟩ := Option.bind_eq_some_iff.mp hnext
      exact .pure (Successor.lt_of_slot? h hslot hslot?)
    · exact .raise
  · split
    · next next hname => exact .pure (h.frames.lt_of_slotNamed? hname)
    · next hname =>
      split
      · exact addFrame_follows h hname
      · split
        · next next hid => exact .pure (h.frames.lt_of_slotNumbered? hid)
        · exact .raise

end Load

end FrameTable
