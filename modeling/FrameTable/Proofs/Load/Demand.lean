import FrameTable.Proofs.Catalog.Demand
import FrameTable.Proofs.Load.Resolving
import FrameTable.Proofs.Load.Values
import FrameTable.Proofs.Tables.Evolution

namespace FrameTable

def Update.Repeats (update : Update Int) (t t' : Tables) (v : Int) (added : Array Warning) : Prop :=
  ∀ warnings, update.run ⟨t, warnings⟩ = (v, ⟨t', warnings ++ added⟩) ∧
    update.run ⟨t', warnings⟩ = (v, ⟨t', warnings ++ added⟩)

namespace Update

variable {t : Tables} {v : Int} {warning : Warning}

def Rests (update : Update Int) (t : Tables) : Prop :=
  ∃ v added, update.Repeats t t v added

namespace Rests

theorem pure : Rests (Pure.pure v) t :=
  ⟨v, #[], fun warnings => ⟨by rw [Array.append_empty]; rfl, by rw [Array.append_empty]; rfl⟩⟩

theorem warn : Rests (do Load.warn warning; return v) t :=
  ⟨v, #[warning], fun _ => ⟨by rw [← Array.push_eq_append]; rfl, by rw [← Array.push_eq_append]; rfl⟩⟩

theorem tables_bind {f : Tables → Update Int} (h : (f t).Rests t) : Rests (Load.tables >>= f) t := h

end Rests

end Update

namespace Tables

variable {t t' : Tables} {k : Referable} {slot : Nat} {name : String}

inductive Demand (t : Tables) : Referable → Nat → Tables → Prop
  | frame {slot : Nat} {f : Frame} {result : Except NumberingError Int} {frames : Catalog Frame}
      (hf : t.frames.get? slot = some f) (h : t.frames.Demand slot f result frames) :
      Demand t .frame slot { t with frames }
  | thing {slot : Nat} {e : Thing} {result : Except NumberingError Int} {things : Catalog Thing}
      (he : t.things.get? slot = some e) (h : t.things.Demand slot e result things) :
      Demand t .thing slot { t with things }
  | sound {slot : Nat} {e : FrameTable.Sound} {result : Except NumberingError Int} {sounds : Catalog FrameTable.Sound}
      (he : t.sounds.get? slot = some e) (h : t.sounds.Demand slot e result sounds) :
      Demand t .sound slot { t with sounds }

theorem Demand.slotNamed?_eq (h : t.Demand k slot t') (j : Referable) (name : String) :
    j.slotNamed? t' name = j.slotNamed? t name := by
  cases h with
  | frame _ h | thing _ h | sound _ h => cases h <;> cases j <;> rfl

def claimId (t : Tables) : Referable → Nat → Tables
  | .frame, slot => { t with frames := (t.frames.claimId slot).2 }
  | .thing, slot => { t with things := (t.things.claimId slot).2 }
  | .sound, slot => { t with sounds := (t.sounds.claimId slot).2 }

namespace Sound

variable (h : t.Sound)
include h

theorem exists_identity? (hname : k.slotNamed? t name = some slot) : ∃ e, k.identity? t slot = some e := by
  cases k with
  | frame =>
    obtain ⟨f, hf, -⟩ := h.frames.slotNamed?_eq_some_iff.mp hname
    exact ⟨_, congrArg (Option.map Catalog.identity) hf⟩
  | thing =>
    obtain ⟨e, he, -⟩ := h.things.slotNamed?_eq_some_iff.mp hname
    exact ⟨_, congrArg (Option.map Catalog.identity) he⟩
  | sound =>
    obtain ⟨e, he, -⟩ := h.sounds.slotNamed?_eq_some_iff.mp hname
    exact ⟨_, congrArg (Option.map Catalog.identity) he⟩

theorem claimId {e : String × Int} (hidentity : k.identity? t slot = some e) :
    (t.claimId k slot).Sound ∧ t.Demand k slot (t.claimId k slot) := by
  cases k with
  | frame =>
    obtain ⟨f, hf, -⟩ := Option.map_eq_some_iff.mp hidentity
    have hclaimed : _ ∧ t.frames.Amends [] (t.frames.claimId slot).2 ∧ _ := h.frames.amends_claimId hf
    obtain ⟨hframes, -, hsize, hrecord⟩ := hclaimed
    refine ⟨h.withFrames hframes fun {i f'} hf' => ?_, .frame hf (h.frames.demand_claimId hf)⟩
    obtain ⟨f₀, id, hold, rfl⟩ := hrecord hf'
    have hindex : f₀.index = i := h.index_eq hold
    obtain ⟨hnext, hsprite, haction⟩ := h.refers hold
    exact ⟨hindex, hsize ▸ hnext, hsprite, haction⟩
  | thing =>
    obtain ⟨e, he, -⟩ := Option.map_eq_some_iff.mp hidentity
    obtain ⟨hthings, hnumbers, -⟩ := h.things.numbers_claimId he
    exact ⟨h.withThings hthings hnumbers.names, .thing he (h.things.demand_claimId he)⟩
  | sound =>
    obtain ⟨e, he, -⟩ := Option.map_eq_some_iff.mp hidentity
    obtain ⟨hsounds, hnumbers, -⟩ := h.sounds.numbers_claimId he
    exact ⟨h.withSounds hsounds hnumbers.names, .sound he (h.sounds.demand_claimId he)⟩

end Sound

end Tables

namespace Load

variable {t t' : Tables} {k : Referable} {slot : Nat} {name token : String}

def recordValue : Referable → Nat → Update Int
  | .frame => frameValue
  | .thing => thingValue
  | .sound => soundValue

def bareLead? (t : Tables) (name : String) : Option (Referable × Nat) :=
  [Referable.thing, .frame, .sound].findSome? fun k => (k.slotNamed? t name).map (k, ·)

inductive Leads (t : Tables) (token : String) (k : Referable) (slot : Nat) : Prop
  | labelled {name : String} (hrefers : Refers token k name) (hname : k.slotNamed? t name = some slot)
  | bare (hlabel : Text.splitLabel? token = none) (hnumber : miscNumber? token = none)
      (hname : bareLead? t token = some (k, slot))

def Misses (t : Tables) (token name : String) : Prop :=
  Refers token .sound name ∧ t.sounds.slotNamed? name = none

theorem Leads.congr (h : Leads t token k slot)
    (hnames : ∀ (j : Referable) name, j.slotNamed? t' name = j.slotNamed? t name) : Leads t' token k slot := by
  cases h with
  | labelled hrefers hname => exact .labelled hrefers ((hnames _ _).trans hname)
  | bare hlabel hnumber hname =>
    refine .bare hlabel hnumber ?_
    simpa only [bareLead?, hnames] using hname

theorem Leads.exists_identity? (hlead : Leads t token k slot) (h : t.Sound) : ∃ e, k.identity? t slot = some e := by
  cases hlead with
  | labelled _ hname => exact h.exists_identity? hname
  | bare _ _ hname =>
    obtain ⟨j, -, hj⟩ := List.exists_of_findSome?_eq_some hname
    obtain ⟨i, hslot, heq⟩ := Option.map_eq_some_iff.mp hj
    obtain ⟨rfl, rfl⟩ := Prod.mk.inj heq
    exact h.exists_identity? hslot

theorem Leads.unique (h : Leads t token k slot) {j : Referable} {i : Nat} (h' : Leads t token j i) :
    j = k ∧ i = slot := by
  cases h with
  | labelled hrefers hname =>
    obtain ⟨label, hsplit, -, hlabel⟩ := hrefers
    cases h' with
    | labelled hrefers' hname' =>
      obtain ⟨label', hsplit', -, hlabel'⟩ := hrefers'
      obtain ⟨rfl, rfl⟩ := Prod.mk.inj (Option.some.inj (hsplit.symm.trans hsplit'))
      obtain rfl := Referable.label_injective (Option.some.inj (hlabel'.symm.trans hlabel))
      exact ⟨rfl, Option.some.inj (hname'.symm.trans hname)⟩
    | bare hnone => cases hsplit.symm.trans hnone
  | bare hnone _ hname =>
    cases h' with
    | labelled hrefers' =>
      obtain ⟨label', hsplit', -⟩ := hrefers'
      cases hsplit'.symm.trans hnone
    | bare _ _ hname' => exact Prod.mk.inj (Option.some.inj (hname'.symm.trans hname))

theorem Misses.congr (h : Misses t token name)
    (hnames : ∀ (j : Referable) name, j.slotNamed? t' name = j.slotNamed? t name) : Misses t' token name :=
  ⟨h.1, (hnames .sound name).trans h.2⟩

theorem miscValue_of_refers (hrefers : Refers token k name) : miscValue token = labelledValue k.label name := by
  obtain ⟨label, hsplit, hne, hlabel⟩ := hrefers
  simp only [miscValue, hsplit, hlabel]

theorem miscValue_of_bare (hlabel : Text.splitLabel? token = none) (hnumber : miscNumber? token = none) :
    miscValue token = bareValue token := by
  simp only [miscValue, hlabel, hnumber]

theorem run_of_leads (h : Leads t token k slot) (warnings : Array Warning) :
    (miscValue token).run ⟨t, warnings⟩ = (recordValue k slot).run ⟨t, warnings⟩ := by
  cases h with
  | labelled hrefers hname =>
    rw [miscValue_of_refers hrefers]
    cases k with
    | frame | thing | sound =>
      have hname' := hname
      simp only [Referable.slotNamed?] at hname'
      rw [labelledValue, run_update_tables_bind]
      simp only [Referable.label, hname', recordValue]
  | bare hlabel hnumber hname =>
    rw [miscValue_of_bare hlabel hnumber, bareValue, run_update_tables_bind]
    simp only [bareLead?, List.findSome?_cons, List.findSome?_nil, Referable.slotNamed?] at hname
    cases hthing : t.things.slotNamed? token with
    | some i =>
      obtain ⟨rfl, rfl⟩ : .thing = k ∧ i = slot := by simpa [hthing] using hname
      rfl
    | none =>
      cases hframe : t.frames.slotNamed? token with
      | some i =>
        obtain ⟨rfl, rfl⟩ : .frame = k ∧ i = slot := by simpa [hthing, hframe] using hname
        rfl
      | none =>
        cases hsound : t.sounds.slotNamed? token with
        | some i =>
          obtain ⟨rfl, rfl⟩ : .sound = k ∧ i = slot := by simpa [hthing, hframe, hsound] using hname
          rfl
        | none => simp [hthing, hframe, hsound] at hname

theorem run_of_misses (h : Misses t token name) (warnings : Array Warning) :
    (miscValue token).run ⟨t, warnings⟩ =
      (soundValue Sound.nullSlot).run ⟨t, warnings.push (.unresolvedReference .sound name)⟩ := by
  obtain ⟨hrefers, hnone⟩ := h
  rw [miscValue_of_refers hrefers, labelledValue, run_update_tables_bind]
  simp only [Referable.label, hnone]
  rfl

theorem stringValue_rests : (stringValue name).Rests t := by
  refine .tables_bind ?_
  simp only
  split
  · exact .warn
  · exact .pure

theorem labelledValue_rests {label : MiscLabel} (hnone : ∀ k : Referable, label = k.label → k.slotNamed? t name = none)
    (hsound : label ≠ .sound) : (labelledValue label name).Rests t := by
  refine .tables_bind ?_
  cases label with
  | frame =>
    have hframe : t.frames.slotNamed? name = none := hnone .frame rfl
    simp only [hframe]
    exact .warn
  | thing =>
    have hthing : t.things.slotNamed? name = none := hnone .thing rfl
    simp only [hthing]
    exact .warn
  | sound => exact absurd rfl hsound
  | flags word => exact .pure
  | codePointer =>
    cases hname : CodePointer.find? name with
    | some position => exact .pure
    | none => exact .warn
  | string => exact stringValue_rests

theorem bareValue_rests (hname : bareLead? t name = none) : (bareValue name).Rests t := by
  have hnone : ∀ k : Referable, k.slotNamed? t name = none := by
    simp only [bareLead?, List.findSome?_eq_none_iff, Option.map_eq_none_iff] at hname
    exact fun k => hname k (by cases k <;> decide)
  refine .tables_bind ?_
  have hthing : t.things.slotNamed? name = none := hnone .thing
  have hframe : t.frames.slotNamed? name = none := hnone .frame
  have hsound : t.sounds.slotNamed? name = none := hnone .sound
  simp only [hthing, hframe, hsound]
  split
  · exact stringValue_rests
  split
  · exact .pure
  · exact .warn

theorem miscValue_rests (hlead : ∀ k slot, ¬Leads t token k slot) (hmiss : ∀ name, ¬Misses t token name) :
    (miscValue token).Rests t := by
  unfold miscValue
  split
  · exact .warn
  · next label name hne hsplit =>
    split
    · next label' hlabel =>
      have hrefers : ∀ k : Referable, label' = k.label → Refers token k name := fun k hk =>
        ⟨label, hsplit, hne, hk ▸ hlabel⟩
      have hnone : ∀ k : Referable, label' = k.label → k.slotNamed? t name = none := fun k hk =>
        Option.eq_none_iff_forall_ne_some.mpr fun slot hname => hlead k slot (.labelled (hrefers k hk) hname)
      exact labelledValue_rests hnone fun hsound => hmiss name ⟨hrefers .sound hsound, hnone .sound hsound⟩
    · exact .warn
  · next hlabel =>
    split
    · exact .pure
    · next hnumber =>
      refine bareValue_rests (Option.eq_none_iff_forall_ne_some.mpr fun (k, slot) hname => ?_)
      exact hlead k slot (.bare hlabel hnumber hname)

theorem claimId_repeats {ε : Type} [Record ε] {kind : Kind} {get : Tables → Catalog ε}
    {put : Tables → Catalog ε → Tables} {fallback : Tables → Int} {e : ε} (hc : (get t).Consistent) (he : (get t).get? slot = some e)
    (hget : ∀ c, get (put t c) = c) (hput : ∀ c, put (put t c) c = put t c)
    (hfallback : ∀ c, fallback (put t c) = fallback t) :
    ∃ v added, (claimId kind get put fallback slot).Repeats t (put t ((get t).claimId slot).2) v added ∧
      (added = #[] → 0 ≤ v ∧ ∃ name, (((get t).claimId slot).2.get? slot).map Catalog.identity = some (name, v)) := by
  have hdemand := hc.demand_claimId he
  obtain ⟨e', he', hname, hnumber⟩ := hdemand.exists_get? he
  have hagain := hdemand.again he hc
  cases hresult : ((get t).claimId slot).1 with
  | ok id =>
    obtain ⟨hnonneg, rfl⟩ := hnumber id hresult
    refine ⟨_, #[], fun warnings => ⟨?_, ?_⟩, fun _ => ⟨hnonneg, _, congrArg (Option.map Catalog.identity) he'⟩⟩
    · rw [run_claimId, hresult, Array.append_empty]
    · rw [run_claimId, hget, hagain, hresult, hput, Array.append_empty]
  | error error =>
    refine ⟨fallback t, #[.poolExhausted kind (Record.name e)], fun warnings => ⟨?_, ?_⟩, nofun⟩
    · rw [run_claimId, hresult, he, ← Array.push_eq_append]
      rfl
    · rw [run_claimId, hget, hagain, hresult, hput, hfallback, he', ← Array.push_eq_append, Option.map_some, hname]
      rfl

theorem recordValue_repeats (h : t.Sound) {e : String × Int} (hidentity : k.identity? t slot = some e) :
    ∃ v added, (recordValue k slot).Repeats t (t.claimId k slot) v added ∧
      (added = #[] → 0 ≤ v ∧ ∃ name, k.identity? (t.claimId k slot) slot = some (name, v)) := by
  cases k with
  | frame =>
    obtain ⟨f, hf, -⟩ := Option.map_eq_some_iff.mp hidentity
    rw [recordValue, frameValue]
    refine claimId_repeats h.frames hf ?_ ?_ ?_ <;> exact fun _ => rfl
  | thing =>
    obtain ⟨e, he, -⟩ := Option.map_eq_some_iff.mp hidentity
    rw [recordValue, thingValue]
    refine claimId_repeats h.things he ?_ ?_ ?_ <;> exact fun _ => rfl
  | sound =>
    obtain ⟨e, he, -⟩ := Option.map_eq_some_iff.mp hidentity
    rw [recordValue, soundValue]
    refine claimId_repeats h.sounds he ?_ ?_ ?_ <;> exact fun _ => rfl

/-- Resolving a token numbers the record that it leads to, or the null sound in place of one that is missing, if the
record has no id, and changes nothing else. A second time it comes to the same and changes nothing. -/
theorem miscValue_repeats (h : t.Sound) (token : String) :
    ∃ v t' added, (miscValue token).Repeats t t' v added ∧ t'.Sound ∧
      (t' = t ∨ ∃ k slot, t.Demand k slot t' ∧
        (Leads t token k slot ∨ (∃ name, Misses t token name) ∧ k = .sound ∧ slot = Sound.nullSlot)) ∧
      ∀ k slot, Leads t token k slot → added = #[] → 0 ≤ v ∧ ∃ name, k.identity? t' slot = some (name, v) := by
  by_cases hlead : ∃ k slot, Leads t token k slot
  · obtain ⟨k, slot, hlead⟩ := hlead
    obtain ⟨e, hidentity⟩ := hlead.exists_identity? h
    obtain ⟨hsound, hdemand⟩ := h.claimId hidentity
    obtain ⟨v, added, hrepeats, hvalue⟩ := recordValue_repeats h hidentity
    refine ⟨v, _, added, fun warnings => ?_, hsound, .inr ⟨k, slot, hdemand, .inl hlead⟩, fun j i hleads hadded => ?_⟩
    · rw [run_of_leads hlead, run_of_leads (hlead.congr hdemand.slotNamed?_eq)]
      exact hrepeats warnings
    · obtain ⟨rfl, rfl⟩ := hlead.unique hleads
      exact hvalue hadded
  by_cases hmiss : ∃ name, Misses t token name
  · obtain ⟨name, hmiss⟩ := hmiss
    obtain ⟨e, hidentity⟩ := h.exists_identity? (k := .sound) h.nullSound
    obtain ⟨hsound, hdemand⟩ := h.claimId hidentity
    obtain ⟨v, added, hrepeats, -⟩ := recordValue_repeats h hidentity
    have hmiss' : Misses (t.claimId .sound Sound.nullSlot) token name := hmiss.congr hdemand.slotNamed?_eq
    refine ⟨v, _, #[.unresolvedReference .sound name] ++ added, fun warnings => ?_, hsound,
      .inr ⟨.sound, Sound.nullSlot, hdemand, .inr ⟨⟨name, hmiss⟩, rfl, rfl⟩⟩, fun k slot hleads => ?_⟩
    · rw [run_of_misses hmiss, run_of_misses hmiss', Array.push_eq_append, ← Array.append_assoc]
      exact hrepeats _
    · exact absurd ⟨k, slot, hleads⟩ hlead
  · rw [not_exists] at hmiss
    have hnone : ∀ k slot, ¬Leads t token k slot := fun k slot hleads => hlead ⟨k, slot, hleads⟩
    obtain ⟨v, added, hrepeats⟩ := miscValue_rests hnone hmiss
    exact ⟨v, t, added, hrepeats, h, .inl rfl, fun k slot hleads => absurd hleads (hnone k slot)⟩

theorem miscValue_repeats_unknownThing :
    let t := Tables.initial ⟨1, 1, 1, 1, 1⟩
    t.Sound ∧ Leads t "thing:unknown" .thing 0 ∧ Referable.thing.identity? t 0 = some ("Unknown", -1) ∧
      ∃ t', (miscValue "thing:unknown").Repeats t t' maxLegacyId #[] ∧ t'.Sound ∧
        ∃ name, Referable.thing.identity? t' 0 = some (name, maxLegacyId) := by
  intro t
  have hsound : t.Sound := Tables.sound_initial _
  have hrefers : Refers "thing:unknown" .thing "unknown" :=
    ⟨"thing", by decide +kernel, by decide, by decide +kernel⟩
  have hlead : Leads t "thing:unknown" .thing 0 :=
    .labelled hrefers (by decide +kernel)
  refine ⟨hsound, hlead, rfl, ?_⟩
  obtain ⟨v, t', added, hrepeats, hsound', -, hvalue⟩ := miscValue_repeats hsound "thing:unknown"
  have hrun := (hrepeats #[]).1
  rw [Array.empty_append] at hrun
  obtain rfl : maxLegacyId = v := (show _ = maxLegacyId by decide +kernel).symm.trans (congrArg Prod.fst hrun)
  obtain rfl : #[] = added := (show _ = #[] by decide +kernel).symm.trans (congrArg (·.2.warnings) hrun)
  obtain ⟨-, name, hname⟩ := hvalue .thing 0 hlead rfl
  exact ⟨t', hrepeats, hsound', name, hname⟩

end Load

end FrameTable
