import FrameTable.Tables
import FrameTable.Proofs.Catalog.Modify

namespace FrameTable

structure Contents extends FrameBody where
  flags : FrameFlags
  args : Option ArgumentList

namespace Frame

def contents (f : Frame) : Contents where
  sprite := f.sprite
  image := f.image
  tics := f.tics
  action := f.action
  next := f.next
  particleEvent := f.particleEvent
  misc1 := f.misc1
  misc2 := f.misc2
  flags := f.flags
  args := f.args

def withContents (f : Frame) (c : Contents) : Frame :=
  { f.withBody c.toFrameBody with flags := c.flags, args := c.args }

@[simp] theorem withContents_contents (f : Frame) : f.withContents f.contents = f := rfl

end Frame

namespace Tables

def withContents (t : Tables) (slot : Nat) (c : Contents) : Tables :=
  { t with frames := t.frames.modify slot (·.withContents c) }

variable {t : Tables} {slot : Nat} {f : Frame}

theorem modify_withContents (t : Tables) (slot : Nat) (c : Contents) (g : Frame → Frame) :
    (t.withContents slot c).frames.modify slot g = t.frames.modify slot fun f => g (f.withContents c) := by
  rw [withContents, Catalog.modify, Catalog.modify, Store.modify_modify]
  rfl

theorem withContents_withContents (t : Tables) (slot : Nat) (c c' : Contents) :
    (t.withContents slot c).withContents slot c' = t.withContents slot c' := by
  rw [withContents, modify_withContents]
  rfl

theorem get?_withContents (h : t.frames.get? slot = some f) (c : Contents) :
    (t.withContents slot c).frames.get? slot = some (f.withContents c) := by
  rw [withContents, Catalog.get?, Catalog.modify, Store.get?_modify, if_pos rfl]
  exact congrArg (Option.map _) h

theorem withContents_of_get? (h : t.frames.get? slot = some f) : t.withContents slot f.contents = t := by
  have hstore : t.frames.store.modify slot (·.withContents f.contents) = t.frames.store := by
    refine Store.modify_eq_self fun item hitem => ?_
    obtain rfl := Option.some.inj (h.symm.trans hitem)
    exact f.withContents_contents
  rw [withContents, Catalog.modify, hstore]

theorem name_withContents (t : Tables) (slot : Nat) (c : Contents) (i : Nat) :
    ((t.withContents slot c).frames.get? i).map (·.name) = (t.frames.get? i).map (·.name) := by
  rw [withContents, Catalog.get?, Catalog.modify, Store.get?_modify]
  split
  · rw [Option.map_map]
    rfl
  · rfl

@[simp] theorem size_withContents (t : Tables) (slot : Nat) (c : Contents) :
    (t.withContents slot c).frames.size = t.frames.size :=
  Store.size_modify _ _ _

end Tables

end FrameTable
