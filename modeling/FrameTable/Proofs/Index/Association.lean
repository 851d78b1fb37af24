import FrameTable.Proofs.Index.Chain
import Mathlib.Data.List.Nodup

/-!
An index seen as an association list. The pairs are the linked slots with their keys, newest first; every
chain holds the slots of its place in this order. Whatever requests are made of an index, it answers them as
the list does.
-/

namespace FrameTable

abbrev Association (κ : Type) := List (Nat × κ)

inductive IndexRequest (κ : Type) where
  | insert (slot : Nat) (key : κ)
  | erase (slot : Nat)
  | find (query : κ)
  | slots (query : κ)
  | key (slot : Nat)
  | size

inductive IndexReply (κ : Type) where
  | inserted (result : Except IndexError Unit)
  | key (key : Option κ)
  | slot (slot : Option Nat)
  | slots (slots : List Nat)
  | size (count : Nat)

def IndexRequest.run {κ σ : Type} (answer : σ → IndexRequest κ → IndexReply κ × σ) (state : σ) :
    List (IndexRequest κ) → List (IndexReply κ) × σ
  | [] => ([], state)
  | request :: requests =>
    let (reply, state) := answer state request
    let (replies, state) := run answer state requests
    (reply :: replies, state)

namespace Association

variable {κ : Type}

def key? (pairs : Association κ) (slot : Nat) : Option κ :=
  (pairs.find? (·.1 == slot)).map (·.2)

def erase (pairs : Association κ) (slot : Nat) : Association κ :=
  pairs.filter (·.1 ≠ slot)

def slots [IndexKey κ] (pairs : Association κ) (query : κ) : List Nat :=
  (pairs.filter fun pair => IndexKey.same pair.2 query).map Prod.fst

def answer [IndexKey κ] (pairs : Association κ) : IndexRequest κ → IndexReply κ × Association κ
  | .insert slot key =>
    if (pairs.key? slot).isSome then (.inserted (.error (.alreadyLinked slot)), pairs)
    else (.inserted (.ok ()), (slot, key) :: pairs)
  | .erase slot => (.key (pairs.key? slot), pairs.erase slot)
  | .find query => (.slot (pairs.slots query).head?, pairs)
  | .slots query => (.slots (pairs.slots query), pairs)
  | .key slot => (.key (pairs.key? slot), pairs)
  | .size => (.size pairs.length, pairs)

theorem key?_eq_some_iff {pairs : Association κ} (hnodup : (pairs.map Prod.fst).Nodup) {slot : Nat} {key : κ} :
    pairs.key? slot = some key ↔ (slot, key) ∈ pairs := by
  induction pairs with
  | nil => simp [key?]
  | cons pair pairs ih =>
    rw [List.map_cons, List.nodup_cons] at hnodup
    by_cases h : pair.1 = slot
    · have hnot : (slot, key) ∉ pairs := fun hm => hnodup.1 (h ▸ List.mem_map_of_mem hm)
      simp only [key?, List.find?_cons, h, beq_self_eq_true, Option.map_some, Option.some.injEq,
        List.mem_cons, hnot, or_false, Prod.ext_iff, true_and, eq_comm]
    · have hne : (slot, key) ≠ pair := fun he => h (he ▸ rfl)
      have ih := ih hnodup.2
      simp only [key?] at ih
      simp only [key?, List.find?_cons, beq_eq_false_iff_ne.mpr h, ih, List.mem_cons, hne, false_or]

theorem length_erase {pairs : Association κ} (hnodup : (pairs.map Prod.fst).Nodup) {slot : Nat} {key : κ}
    (hmem : (slot, key) ∈ pairs) : (pairs.erase slot).length = pairs.length - 1 := by
  have hslots : (pairs.erase slot).map Prod.fst = (pairs.map Prod.fst).erase slot := by
    rw [hnodup.erase_eq_filter, Association.erase, List.filter_map]
    congr 1
    apply List.filter_congr
    intro pair _
    simp [bne, beq_eq_decide]
  have hlength := congrArg List.length hslots
  rwa [List.length_erase_of_mem (List.mem_map_of_mem hmem), List.length_map, List.length_map] at hlength

end Association

namespace HashIndex

variable {κ : Type} [IndexKey κ] {index : HashIndex κ} {pairs : Association κ}

def answer (index : HashIndex κ) : IndexRequest κ → IndexReply κ × HashIndex κ
  | .insert slot key =>
    match index.insert slot key with
    | .ok index => (.inserted (.ok ()), index)
    | .error error => (.inserted (.error error), index)
  | .erase slot => (.key (index.erase slot).1, (index.erase slot).2)
  | .find query => (.slot (index.find? query), index)
  | .slots query => (.slots (index.slots query), index)
  | .key slot => (.key (index.key? slot), index)
  | .size => (.size index.size, index)

def slotsAt (index : HashIndex κ) (pairs : Association κ) (place : Nat) : List Nat :=
  (pairs.filter fun pair => index.place pair.2 = place).map Prod.fst

theorem size_heads_unlink (index : HashIndex κ) (slot : Nat) (link : Link κ) (previous : Option Nat) :
    (index.unlink slot link previous).heads.size = index.heads.size := by
  cases previous <;> simp [unlink]

structure Represents (index : HashIndex κ) (pairs : Association κ) : Prop where
  nodup : (pairs.map Prod.fst).Nodup
  key?_iff : ∀ {slot : Nat} {key : κ}, index.key? slot = some key ↔ (slot, key) ∈ pairs
  chain : ∀ place < index.heads.size, Segment index (index.head? place) (index.slotsAt pairs place) none
  size_eq : index.size = pairs.length

theorem represents_empty (count : Nat) : (empty count : HashIndex κ).Represents [] where
  nodup := List.nodup_nil
  key?_iff := by simp [key?, link?, empty]
  chain place hplace := by
    have hhead : (empty count : HashIndex κ).head? place = none := by
      rw [empty, Array.size_replicate] at hplace
      simp [head?, empty, hplace]
    rw [hhead]
    exact .nil none
  size_eq := rfl

namespace Represents

theorem key?_eq (h : index.Represents pairs) (slot : Nat) : index.key? slot = pairs.key? slot := by
  apply Option.ext
  intro key
  rw [h.key?_iff, Association.key?_eq_some_iff h.nodup]

theorem nodup_slotsAt (h : index.Represents pairs) (place : Nat) : (index.slotsAt pairs place).Nodup :=
  h.nodup.sublist (List.filter_sublist.map _)

theorem follow_head? (h : index.Represents pairs) {place : Nat} (hplace : place < index.heads.size) :
    index.follow index.links.size (index.head? place) = index.slotsAt pairs place := by
  have hchain := h.chain place hplace
  exact hchain.follow_eq (hchain.length_le (h.nodup_slotsAt place))

theorem bucket_eq (h : index.Represents pairs) (query : κ) :
    index.bucket query = index.slotsAt pairs (index.place query) :=
  h.follow_head? (index.place_lt query)

theorem slots_eq (h : index.Represents pairs) (query : κ) : index.slots query = pairs.slots query := by
  rw [slots, h.bucket_eq, slotsAt, Association.slots, List.filter_map, List.filter_filter]
  congr 1
  apply List.filter_congr
  intro pair hpair
  have hkey : index.key? pair.1 = some pair.2 := h.key?_iff.mpr hpair
  simp only [Function.comp_apply, holds, hkey, Option.any_some]
  cases hs : IndexKey.same pair.2 query with
  | false => rw [Bool.false_and]
  | true => rw [Bool.true_and, decide_eq_true (index.place_eq_of_same hs)]

theorem find?_eq (h : index.Represents pairs) (query : κ) :
    index.find? query = (pairs.slots query).head? := by
  rw [find?_eq_head?, h.slots_eq]

theorem notMem_of_contains (h : index.Represents pairs) {slot : Nat} (hfree : index.contains slot = false) :
    slot ∉ pairs.map Prod.fst := by
  intro hm
  obtain ⟨pair, hpair, rfl⟩ := List.mem_map.mp hm
  rw [← isSome_key?, h.key?_iff.mpr hpair] at hfree
  cases hfree

theorem slotsAt_push (index : HashIndex κ) (pairs : Association κ) (slot : Nat) (key : κ) (place : Nat) :
    (index.push slot key).slotsAt ((slot, key) :: pairs) place =
      if index.place key = place then slot :: index.slotsAt pairs place else index.slotsAt pairs place := by
  have hplace (k : κ) : (index.push slot key).place k = index.place k := by simp [HashIndex.place, HashIndex.push]
  by_cases hk : index.place key = place
  · simp only [slotsAt, hplace, List.filter_cons, hk, decide_true, if_true, List.map_cons]
  · simp only [slotsAt, hplace, List.filter_cons, hk, decide_false, Bool.false_eq_true, if_false]

theorem push (h : index.Represents pairs) {slot : Nat} (hfree : index.contains slot = false) (key : κ) :
    (index.push slot key).Represents ((slot, key) :: pairs) := by
  have hnot := h.notMem_of_contains hfree
  refine ⟨List.nodup_cons.mpr ⟨hnot, h.nodup⟩, ?_, ?_, congrArg (· + 1) h.size_eq⟩
  · intro other k
    rw [key?_push, List.mem_cons, Prod.ext_iff]
    by_cases ho : other = slot
    · subst ho
      have hno : (other, k) ∉ pairs := fun hm => hnot (List.mem_map_of_mem hm)
      simp only [if_true, Option.some.injEq, hno, or_false, true_and, eq_comm]
    · simp only [ho, if_false, h.key?_iff, false_and, false_or]
  · intro place hp
    have hold : Segment (index.push slot key) (index.head? place) (index.slotsAt pairs place) none := by
      apply (h.chain place (by simpa [HashIndex.push] using hp)).congr
      intro s hs
      have hne : s ≠ slot := fun he => hnot (he ▸ (List.filter_sublist.map _).subset hs)
      rw [link?_push, if_neg hne]
    rw [head?_push, slotsAt_push]
    by_cases hk : index.place key = place
    · have hlink : (index.push slot key).link? slot = some ⟨key, index.head? place⟩ := by
        rw [link?_push, if_pos rfl, hk]
      rw [if_pos hk.symm, if_pos hk]
      exact .cons hlink hold
    · rw [if_neg (Ne.symm hk), if_neg hk]
      exact hold

theorem slotsAt_erase (index : HashIndex κ) (pairs : Association κ) (slot place : Nat) :
    index.slotsAt (pairs.erase slot) place = (index.slotsAt pairs place).filter (· ≠ slot) := by
  simp only [slotsAt, Association.erase, List.filter_map, List.filter_filter]
  congr 1
  apply List.filter_congr
  intro pair _
  simp [Bool.and_comm]

theorem mem_slotsAt {slot place : Nat} :
    slot ∈ index.slotsAt pairs place ↔ ∃ key, (slot, key) ∈ pairs ∧ index.place key = place := by
  simp [slotsAt]

theorem place_eq_of_mem (h : index.Represents pairs) {slot p q : Nat} (hp : slot ∈ index.slotsAt pairs p)
    (hq : slot ∈ index.slotsAt pairs q) : p = q := by
  obtain ⟨a, ha, rfl⟩ := mem_slotsAt.mp hp
  obtain ⟨b, hb, rfl⟩ := mem_slotsAt.mp hq
  have hab := (h.key?_iff.mpr ha).symm.trans (h.key?_iff.mpr hb)
  rw [Option.some.inj hab]

theorem filter_ne_of_notMem {slot : Nat} {slots : List Nat} (h : slot ∉ slots) :
    slots.filter (· ≠ slot) = slots :=
  List.filter_eq_self.mpr fun _ hs => decide_eq_true fun he => h (he ▸ hs)

theorem exists_seek_eq (h : index.Represents pairs) {slot : Nat} {link : Link κ}
    (hlink : index.link? slot = some link) :
    ∃ before after, index.slotsAt pairs (index.place link.key) = before ++ slot :: after ∧
      index.seek slot index.links.size none (index.head? (index.place link.key)) = some before.getLast? := by
  have hkey : index.key? slot = some link.key := by rw [key?, hlink, Option.map_some]
  have hmem : slot ∈ index.slotsAt pairs (index.place link.key) :=
    mem_slotsAt.mpr ⟨link.key, h.key?_iff.mp hkey, rfl⟩
  obtain ⟨before, after, hsplit⟩ := List.append_of_mem hmem
  have hnodup := h.nodup_slotsAt (index.place link.key)
  have hchain := h.chain _ (index.place_lt link.key)
  have hlength := hchain.length_le hnodup
  rw [hsplit] at hnodup hchain hlength
  have hbefore : slot ∉ before := fun hs =>
    (List.nodup_append.mp hnodup).2.2 slot hs slot List.mem_cons_self rfl
  refine ⟨before, after, hsplit, ?_⟩
  rw [hchain.seek_eq hbefore (by simp at hlength; omega), Option.or_none]

theorem slotsAt_unlink (index : HashIndex κ) (pairs : Association κ) (slot : Nat) (link : Link κ)
    (previous : Option Nat) (place : Nat) :
    (index.unlink slot link previous).slotsAt (pairs.erase slot) place =
      (index.slotsAt pairs place).filter (· ≠ slot) := by
  have hplace (k : κ) : (index.unlink slot link previous).place k = index.place k := by
    rw [HashIndex.place, size_heads_unlink, HashIndex.place]
  rw [← slotsAt_erase]
  simp only [slotsAt, hplace]

theorem chain_unlink (h : index.Represents pairs) {slot : Nat} {link : Link κ} {before after : List Nat}
    (hlink : index.link? slot = some link)
    (hsplit : index.slotsAt pairs (index.place link.key) = before ++ slot :: after) {place : Nat}
    (hplace : place < index.heads.size) :
    Segment (index.unlink slot link before.getLast?) ((index.unlink slot link before.getLast?).head? place)
      ((index.slotsAt pairs place).filter (· ≠ slot)) none := by
  have hnodup := h.nodup_slotsAt (index.place link.key)
  rw [hsplit] at hnodup
  obtain ⟨-, hcons, hdisjoint⟩ := List.nodup_append.mp hnodup
  have hbefore : slot ∉ before := fun hs => hdisjoint slot hs slot List.mem_cons_self rfl
  have hafter : slot ∉ after := (List.nodup_cons.mp hcons).1
  rw [head?_unlink]
  by_cases hk : place = index.place link.key
  · subst hk
    have hrest : (before ++ slot :: after).filter (· ≠ slot) = before ++ after := by
      rw [List.filter_append, List.filter_cons_of_neg (by simp), filter_ne_of_notMem hbefore,
        filter_ne_of_notMem hafter]
    have hchain := h.chain _ hplace
    rw [hsplit] at hchain ⊢
    rw [hrest]
    simpa only [true_and] using hchain.unlink hlink hnodup
  · -- The chains of other places hold neither the slot nor the one before it.
    have hother : ∀ s ∈ before ++ slot :: after, s ∉ index.slotsAt pairs place := fun s hs hs' =>
      hk (h.place_eq_of_mem hs' (hsplit ▸ hs))
    have hslot := hother slot (by simp)
    rw [filter_ne_of_notMem hslot]
    simp only [hk, false_and, if_false]
    apply (h.chain place hplace).unlink_of_notMem hslot
    intro s hs he
    exact hother s (List.mem_append_left _ (List.mem_of_getLast? he)) hs

theorem unlink (h : index.Represents pairs) {slot : Nat} {link : Link κ} {before after : List Nat}
    (hlink : index.link? slot = some link)
    (hsplit : index.slotsAt pairs (index.place link.key) = before ++ slot :: after) :
    (index.unlink slot link before.getLast?).Represents (pairs.erase slot) := by
  have hkey : index.key? slot = some link.key := by rw [key?, hlink, Option.map_some]
  refine ⟨h.nodup.sublist (List.filter_sublist.map _), ?_, ?_, ?_⟩
  · intro other k
    rw [Association.erase, List.mem_filter, ← h.key?_iff, key?, link?_unlink, key?]
    by_cases ho : other = slot
    · simp [ho]
    · by_cases hb : before.getLast? = some other <;> simp [ho, hb, Function.comp_def]
  · intro place hplace
    rw [size_heads_unlink] at hplace
    rw [slotsAt_unlink]
    exact h.chain_unlink hlink hsplit hplace
  · rw [Association.length_erase h.nodup (h.key?_iff.mp hkey), ← h.size_eq]
    rfl

theorem erase (h : index.Represents pairs) (slot : Nat) :
    (index.erase slot).1 = index.key? slot ∧ (index.erase slot).2.Represents (pairs.erase slot) := by
  cases hlink : index.link? slot with
  | none =>
    have hkey : index.key? slot = none := by rw [key?, hlink, Option.map_none]
    have hpairs : pairs.erase slot = pairs := by
      apply List.filter_eq_self.mpr
      intro pair hpair
      refine decide_eq_true fun he => ?_
      rw [← he, h.key?_iff.mpr hpair] at hkey
      cases hkey
    simp only [HashIndex.erase, hlink, hkey, hpairs, true_and]
    exact h
  | some link =>
    obtain ⟨before, after, hsplit, hseek⟩ := h.exists_seek_eq hlink
    simp only [HashIndex.erase, hlink, hseek, key?, Option.map_some, true_and]
    exact h.unlink hlink hsplit

theorem answer (h : index.Represents pairs) (request : IndexRequest κ) :
    (index.answer request).1 = (pairs.answer request).1 ∧
      (index.answer request).2.Represents (pairs.answer request).2 := by
  cases request with
  | insert slot key =>
    simp only [HashIndex.answer, Association.answer, insert, ← h.key?_eq, isSome_key?]
    cases hfree : index.contains slot with
    | true => exact ⟨rfl, h⟩
    | false => exact ⟨rfl, h.push hfree key⟩
  | erase slot =>
    refine ⟨congrArg IndexReply.key ?_, (h.erase slot).2⟩
    rw [(h.erase slot).1, h.key?_eq]
  | find query => exact ⟨congrArg IndexReply.slot (h.find?_eq query), h⟩
  | slots query => exact ⟨congrArg IndexReply.slots (h.slots_eq query), h⟩
  | key slot => exact ⟨congrArg IndexReply.key (h.key?_eq slot), h⟩
  | size => exact ⟨congrArg IndexReply.size h.size_eq, h⟩

theorem run (h : index.Represents pairs) (requests : List (IndexRequest κ)) :
    (IndexRequest.run HashIndex.answer index requests).1 =
        (IndexRequest.run Association.answer pairs requests).1 ∧
      (IndexRequest.run HashIndex.answer index requests).2.Represents
        (IndexRequest.run Association.answer pairs requests).2 := by
  induction requests generalizing index pairs with
  | nil => exact ⟨rfl, h⟩
  | cons request requests ih =>
    obtain ⟨hreply, hnext⟩ := h.answer request
    obtain ⟨hreplies, hlast⟩ := ih hnext
    refine ⟨?_, hlast⟩
    simp only [IndexRequest.run, hreply, hreplies]

theorem buckets_eq (h : index.Represents pairs) :
    index.buckets.toList = (List.range index.heads.size).map (index.slotsAt pairs) := by
  apply List.ext_getElem
  · simp [buckets]
  · intro place h₁ h₂
    have hplace : place < index.heads.size := by simpa using h₂
    rw [List.getElem_map, List.getElem_range, ← h.follow_head? hplace]
    simp [buckets, head?, hplace]

theorem nodup_buckets (h : index.Represents pairs) : index.buckets.toList.flatten.Nodup := by
  rw [h.buckets_eq, List.nodup_flatten]
  refine ⟨?_, ?_⟩
  · simp only [List.forall_mem_map]
    exact fun place _ => h.nodup_slotsAt place
  · rw [List.pairwise_map]
    refine List.nodup_range.imp ?_
    intro p q hpq slot hp hq
    exact hpq (h.place_eq_of_mem hp hq)

end Represents

theorem size_heads_answer (index : HashIndex κ) (request : IndexRequest κ) :
    (index.answer request).2.heads.size = index.heads.size := by
  cases request with
  | insert slot key => cases hfree : index.contains slot <;> simp [answer, insert, hfree, push]
  | erase slot =>
    simp only [answer, erase]
    split
    · rfl
    · split
      · rfl
      · exact index.size_heads_unlink _ _ _
  | find query => rfl
  | slots query => rfl
  | key slot => rfl
  | size => rfl

theorem size_heads_run (index : HashIndex κ) (requests : List (IndexRequest κ)) :
    (IndexRequest.run answer index requests).2.heads.size = index.heads.size := by
  induction requests generalizing index with
  | nil => rfl
  | cons request requests ih => exact (ih _).trans (index.size_heads_answer request)

/-- An index answers as the association list of its linked slots, for any number of chains. Each chain leads
through the slots of its place to its end, no slot is in two chains, the search for a linked slot finds it,
and keys that are the same have the same place. -/
theorem run_empty_eq_association (count : Nat) (requests : List (IndexRequest κ)) :
    let index := (IndexRequest.run HashIndex.answer (empty count : HashIndex κ) requests).2
    let pairs := (IndexRequest.run Association.answer ([] : Association κ) requests).2
    (IndexRequest.run HashIndex.answer (empty count) requests).1 =
        (IndexRequest.run Association.answer [] requests).1 ∧
      index.size = pairs.length ∧
      index.heads.size = max count 1 ∧
      (∀ place < index.heads.size, index.buckets[place]? = some (index.slotsAt pairs place) ∧
        Segment index (index.head? place) (index.slotsAt pairs place) none) ∧
      index.buckets.toList.flatten.Nodup ∧
      (∀ slot link, index.link? slot = some link →
        ∃ previous, index.seek slot index.links.size none (index.head? (index.place link.key)) = some previous) ∧
      ∀ a b : κ, IndexKey.same a b = true → index.place a = index.place b := by
  intro index pairs
  obtain ⟨hreplies, h⟩ : _ ∧ index.Represents pairs := (represents_empty count).run requests
  have hheads : index.heads.size = max count 1 := by
    rw [show index.heads.size = (empty count : HashIndex κ).heads.size from size_heads_run _ requests]
    exact Array.size_replicate
  refine ⟨hreplies, h.size_eq, hheads, ?_, h.nodup_buckets, ?_, fun a b => index.place_eq_of_same⟩
  · intro place hplace
    refine ⟨?_, h.chain place hplace⟩
    rw [← h.follow_head? hplace]
    simp [buckets, head?, hplace]
  · intro slot link hlink
    obtain ⟨before, after, -, hseek⟩ := h.exists_seek_eq hlink
    exact ⟨_, hseek⟩

end HashIndex

end FrameTable
