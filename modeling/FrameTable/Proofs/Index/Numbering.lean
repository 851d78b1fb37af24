import Mathlib.Data.List.Basic
import FrameTable.Proofs.Index.Owners

/-!
Ids over whole runs of a directory. A number leads to the slot that it was given to last, among those that still
have it. Between two changes of the pool the ids that it gives out go down, so none is given out twice.
-/

namespace FrameTable

inductive DirectoryRequest where
  | addName (slot : Nat) (name : String)
  | setId (slot : Nat) (number : Int)
  | claimId (slot : Nat)
  | setPool (pool : IdPool)

namespace DirectoryRequest

def KeepsPool : DirectoryRequest → Prop
  | .setPool _ => False
  | _ => True

def gift? (issued : Option Int) : DirectoryRequest → Option (Nat × Int)
  | .setId slot number => if number < 0 then none else some (slot, number)
  | .claimId slot => issued.map fun id => (slot, id)
  | _ => none

end DirectoryRequest

namespace Directory

def next (d : Directory) : DirectoryRequest → Directory
  | .addName slot name => (d.addName slot name).toOption.getD d
  | .setId slot number => (d.setId slot number).toOption.getD d
  | .claimId slot => (d.claimId slot).2
  | .setPool pool => { d with pool }

def run (d : Directory) (requests : List DirectoryRequest) : Directory :=
  requests.foldl next d

def issued? (d : Directory) : DirectoryRequest → Option Int
  | .claimId slot => if d.idOf? slot = none then (d.claimId slot).1.toOption else none
  | _ => none

def issued (d : Directory) : List DirectoryRequest → List Int
  | [] => []
  | request :: requests => (d.issued? request).toList ++ (d.next request).issued requests

def gifts (d : Directory) : List DirectoryRequest → List (Nat × Int)
  | [] => []
  | request :: requests => (d.next request).gifts requests ++ (request.gift? (d.issued? request)).toList

def Held (d : Directory) (id : Int) : Prop :=
  ∃ slot, d.idOf? slot = some id

/-- The greatest id not above the cursor that no slot holds. -/
structure NextFree (d : Directory) (id : Int) : Prop where
  nonneg : 0 ≤ id
  le_cursor : id ≤ d.pool.cursor
  not_held : ¬d.Held id
  above : ∀ i, id < i → i ≤ d.pool.cursor → d.Held i

def Spent (d : Directory) : Prop :=
  ∀ i, 0 ≤ i → i ≤ d.pool.cursor → d.Held i

inductive Step (d : Directory) : DirectoryRequest → Option Int → Directory → Prop
  | addName (slot : Nat) (name : String) (names : HashIndex Name) : Step d (.addName slot name) none { d with names }
  | setId {slot : Nat} {number : Int} {d' : Directory} (hset : d.setId slot number = .ok d') :
      Step d (.setId slot number) none d'
  | keep {slot : Nat} {number : Int} (hid : d.idOf? slot = some number) : Step d (.claimId slot) none d
  | issue {slot : Nat} {id : Int} (hnone : d.idOf? slot = none) (hfree : d.NextFree id) :
      Step d (.claimId slot) (some id) { d with ids := d.ids.push slot ⟨id⟩, pool := { cursor := id - 1 } }
  | refuse {slot : Nat} {pool : IdPool} (hnone : d.idOf? slot = none) (hspent : d.Spent) (hdry : pool.cursor < 0)
      (hle : pool.cursor ≤ d.pool.cursor) : Step d (.claimId slot) none { d with pool }
  | setPool (pool : IdPool) : Step d (.setPool pool) none { d with pool }

variable {d d' : Directory} {slot : Nat} {number id : Int} {request : DirectoryRequest}

theorem held_iff (h : d.ids.WellLinked) : d.Held id ↔ (d.ids.find? ⟨id⟩).isSome = true := by
  rw [HashIndex.find?_eq_head?]
  change _ ↔ (d.owners id).head?.isSome = true
  cases howners : d.owners id with
  | nil =>
    refine iff_of_false (fun ⟨slot, hslot⟩ => ?_) nofun
    have := (mem_owners_iff h).mpr hslot
    rw [howners] at this
    cases this
  | cons slot rest => exact iff_of_true ⟨slot, (mem_owners_iff h).mp (howners ▸ List.mem_cons_self)⟩ rfl

theorem claimId_of_numbered (hid : d.idOf? slot = some number) : d.claimId slot = (.ok number, d) := by
  rw [claimId, hid]

theorem NextFree.not_spent (h : d.NextFree id) : ¬d.Spent :=
  fun hspent => h.not_held (hspent id h.nonneg h.le_cursor)

theorem claimId_of_unnumbered (h : d.ids.WellLinked) (hnone : d.idOf? slot = none) :
    (∃ id, d.NextFree id ∧
      d.claimId slot = (.ok id, { d with ids := d.ids.push slot ⟨id⟩, pool := { cursor := id - 1 } })) ∨
    ∃ pool : IdPool, d.Spent ∧ pool.cursor < 0 ∧ pool.cursor ≤ d.pool.cursor ∧
      d.claimId slot = (.error (.pool .exhausted), { d with pool }) := by
  rcases d.pool.allocate_cases fun id => (d.ids.find? ⟨id⟩).isSome with
    ⟨id, hallocate, hnonneg, hle, hfree, habove⟩ | ⟨pool, hallocate, hdry, hle, hused⟩
  · refine .inl ⟨id, ⟨hnonneg, hle, ?_, fun i hlt hi => (held_iff h).mpr (habove i hlt hi)⟩, ?_⟩
    · rw [held_iff h, hfree]
      exact Bool.false_ne_true
    · simp [claimId, hnone, hallocate, HashIndex.insert, contains_ids_of_unnumbered hnone]
  · refine .inr ⟨pool, fun i hi hle => (held_iff h).mpr (hused i hi hle), hdry, hle, ?_⟩
    simp [claimId, hnone, hallocate]

theorem step_next (h : d.ids.WellLinked) (request : DirectoryRequest) :
    d.Step request (d.issued? request) (d.next request) := by
  cases request with
  | addName slot name =>
    rw [next]
    cases hadd : d.addName slot name with
    | error error => exact .addName slot name d.names
    | ok d' =>
      obtain ⟨names, rfl⟩ := exists_names_of_addName hadd
      exact .addName slot name names
  | setId slot number =>
    obtain ⟨d', hset, -⟩ := exists_setId_eq_ok h slot number
    rw [next, hset]
    exact .setId hset
  | claimId slot =>
    rw [next, issued?]
    cases hid : d.idOf? slot with
    | some number =>
      rw [claimId_of_numbered hid]
      exact .keep hid
    | none =>
      rcases claimId_of_unnumbered h hid with ⟨id, hfree, hclaim⟩ | ⟨pool, hspent, hdry, hle, hclaim⟩
      · rw [hclaim]
        exact .issue hid hfree
      · rw [hclaim]
        exact .refuse hid hspent hdry hle
  | setPool pool => exact .setPool pool

theorem Step.wellLinked {issued : Option Int} (hstep : d.Step request issued d') (h : d.ids.WellLinked) :
    d'.ids.WellLinked := by
  cases hstep with
  | @setId slot number _ hset =>
    obtain ⟨found, hfound, -, -, hlinked, -⟩ := exists_setId_eq_ok h slot number
    obtain rfl := Except.ok.inj (hset.symm.trans hfound)
    exact hlinked
  | issue hnone => exact h.push (contains_ids_of_unnumbered hnone) _
  | _ => exact h

def Recorded (d : Directory) (log : List (Nat × Int)) : Prop :=
  ∀ (n : Int) (p : Nat → Bool),
    (d.owners n).find? p = (log.find? fun g => g.2 = n ∧ d.idOf? g.1 = some n ∧ p g.1).map Prod.fst

variable {log : List (Nat × Int)} {given : Option Int}

theorem Recorded.give (h : d.Recorded log) (howners : ∀ n, d'.owners n = promote (d.owners n) slot (given = some n))
    (hid : ∀ other, d'.idOf? other = if other = slot then given else d.idOf? other) :
    d'.Recorded ((given.map fun id => (slot, id)).toList ++ log) := by
  intro n p
  -- Among the old gifts those to the slot do not count any more, unless the slot is found before them.
  have hold (hslot : given = some n → p slot = false) : ((d.owners n).filter (· ≠ slot)).find? p =
      (log.find? fun g => g.2 = n ∧ d'.idOf? g.1 = some n ∧ p g.1).map Prod.fst := by
    rw [List.find?_filter, h]
    refine congrArg (fun q => (log.find? q).map Prod.fst) (funext fun g => decide_eq_decide.mpr ?_)
    rw [hid]
    by_cases hg : g.1 = slot
    · refine iff_of_false (by simp [hg]) fun ⟨_, hgiven, hp⟩ => ?_
      rw [if_pos hg] at hgiven
      rw [hg, hslot hgiven] at hp
      cases hp
    · simp [hg]
  rw [howners, promote]
  by_cases hgiven : given = some n
  · subst hgiven
    rw [if_pos rfl, Option.map_some, Option.toList_some, List.singleton_append]
    cases hp : p slot with
    | true => simp [hp, hid]
    | false =>
      rw [List.find?_cons_of_neg (by simp [hp]), List.find?_cons_of_neg (by simp [hp]), hold fun _ => hp]
  · rw [if_neg hgiven, hold fun hslot => absurd hslot hgiven]
    cases given with
    | none => rfl
    | some id =>
      have hne : id ≠ n := fun he => hgiven (congrArg some he)
      rw [Option.map_some, Option.toList_some, List.singleton_append, List.find?_cons_of_neg (by simp [hne])]

theorem Recorded.congr (h : d.Recorded log) (hids : d'.ids = d.ids) : d'.Recorded log := by
  intro n p
  simp only [owners, idOf?, hids]
  exact h n p

theorem Recorded.step {issued : Option Int} (hlog : d.Recorded log) (h : d.ids.WellLinked)
    (hstep : d.Step request issued d') : d'.Recorded ((request.gift? issued).toList ++ log) := by
  cases hstep with
  | @setId slot number _ hset =>
    obtain ⟨found, hfound, -, -, -, hid⟩ := exists_setId_eq_ok h slot number
    obtain rfl := Except.ok.inj (hset.symm.trans hfound)
    have hgift : (DirectoryRequest.setId slot number).gift? none =
        (if number < 0 then none else some number).map fun id => (slot, id) := by
      rw [DirectoryRequest.gift?]
      split <;> rfl
    rw [hgift]
    refine hlog.give (fun n => ?_) hid
    rw [owners_setId h hset]
    by_cases hneg : number < 0
    · simp [hneg, promote, Int.not_le.mpr hneg]
    · simp [hneg, promote, Int.not_lt.mp hneg]
  | @issue slot id hnone hfree =>
    change Recorded _ (((some id).map fun id => (slot, id)).toList ++ log)
    refine hlog.give (fun n => ?_) fun other => idOf?_of_push rfl other
    have hunused : ∀ other, d.idOf? other ≠ some id := fun other hother => hfree.not_held ⟨other, hother⟩
    have hnot : slot ∉ d.owners n := fun hmem => by
      rw [mem_owners_iff h, hnone] at hmem
      cases hmem
    rw [owners_push h hnone hunused rfl, promote]
    by_cases hn : id = n
    · subst hn
      simp [owners_eq_nil h hunused]
    · rw [if_neg hn, if_neg fun hsome => hn (Option.some.inj hsome), HashIndex.Represents.filter_ne_of_notMem hnot]
  | _ => exact hlog.congr rfl

theorem Recorded.run (h : d.ids.WellLinked) (hlog : d.Recorded log) (requests : List DirectoryRequest) :
    (d.run requests).ids.WellLinked ∧ (d.run requests).Recorded (d.gifts requests ++ log) := by
  induction requests generalizing d log with
  | nil => exact ⟨h, hlog⟩
  | cons request requests ih =>
    have hstep := step_next h request
    rw [gifts, List.append_assoc]
    exact ih (hstep.wellLinked h) (hlog.step h hstep)

theorem recorded_empty (buckets : Nat) : (empty buckets).Recorded [] := by
  intro n p
  have hnil : (empty buckets).owners n = [] := owners_eq_nil (HashIndex.wellLinked_empty buckets) nofun
  rw [hnil]
  rfl

theorem Step.cursor_le {issued : Option Int} (hstep : d.Step request issued d') (h : d.ids.WellLinked)
    (hkeeps : request.KeepsPool) : d'.pool.cursor ≤ d.pool.cursor := by
  cases hstep with
  | addName => exact Int.le_refl _
  | @setId slot number _ hset =>
    obtain ⟨found, hfound, -, hpool, -⟩ := exists_setId_eq_ok h slot number
    obtain rfl := Except.ok.inj (hset.symm.trans hfound)
    exact Int.le_of_eq (congrArg IdPool.cursor hpool)
  | keep => exact Int.le_refl _
  | issue _ hfree => exact Int.le_trans (Int.le_of_lt (Int.sub_lt_self _ (by decide))) hfree.le_cursor
  | refuse _ _ _ hle => exact hle
  | setPool => exact hkeeps.elim

theorem Step.cursor_lt (hstep : d.Step request (some id) d') : d'.pool.cursor < id ∧ id ≤ d.pool.cursor := by
  cases hstep with
  | issue _ hfree => exact ⟨Int.sub_lt_self _ (by decide), hfree.le_cursor⟩

theorem issued_le (h : d.ids.WellLinked) {requests : List DirectoryRequest}
    (hkeeps : ∀ request ∈ requests, request.KeepsPool) : ∀ id ∈ d.issued requests, id ≤ d.pool.cursor := by
  induction requests generalizing d with
  | nil => nofun
  | cons request requests ih =>
    obtain ⟨hhead, htail⟩ := List.forall_mem_cons.mp hkeeps
    have hstep := step_next h request
    intro id hid
    rcases List.mem_append.mp hid with hnow | hlater
    · rw [Option.mem_toList.mp hnow] at hstep
      exact hstep.cursor_lt.2
    · exact Int.le_trans (ih (hstep.wellLinked h) htail id hlater) (hstep.cursor_le h hhead)

theorem pairwise_issued (h : d.ids.WellLinked) {requests : List DirectoryRequest}
    (hkeeps : ∀ request ∈ requests, request.KeepsPool) : (d.issued requests).Pairwise (· > ·) := by
  induction requests generalizing d with
  | nil => exact .nil
  | cons request requests ih =>
    obtain ⟨hhead, htail⟩ := List.forall_mem_cons.mp hkeeps
    have hstep := step_next h request
    have hnext := hstep.wellLinked h
    rw [issued, List.pairwise_append]
    refine ⟨?_, ih hnext htail, fun id hid later hlater => ?_⟩
    · cases d.issued? request <;> simp
    · rw [Option.mem_toList.mp hid] at hstep
      exact Int.lt_of_le_of_lt (issued_le hnext htail later hlater) hstep.cursor_lt.1

theorem cursor_run_le (h : d.ids.WellLinked) {requests : List DirectoryRequest}
    (hkeeps : ∀ request ∈ requests, request.KeepsPool) : (d.run requests).pool.cursor ≤ d.pool.cursor := by
  induction requests generalizing d with
  | nil => exact Int.le_refl _
  | cons request requests ih =>
    obtain ⟨hhead, htail⟩ := List.forall_mem_cons.mp hkeeps
    have hstep := step_next h request
    exact Int.le_trans (ih (hstep.wellLinked h) htail) (hstep.cursor_le h hhead)

theorem claimId_of_dry (hdry : d.pool.cursor < 0) (hnone : d.idOf? slot = none) :
    d.claimId slot = (.error (.pool .exhausted), d) := by
  rw [claimId, hnone, IdPool.allocate_of_dry hdry]

structure NumbersOnDemand (d : Directory) (slot : Nat) : Prop where
  keeps : ∀ number, d.idOf? slot = some number → d.claimId slot = (.ok number, d)
  issues : d.idOf? slot = none → ¬d.Spent → ∃ id d', d.claimId slot = (.ok id, d') ∧ d.NextFree id ∧
    d'.names = d.names ∧ d'.owners id = [slot] ∧
    ∀ other, d'.idOf? other = if other = slot then some id else d.idOf? other
  refuses : d.idOf? slot = none → d.Spent → ∃ d', d.claimId slot = (.error (.pool .exhausted), d') ∧
    d'.names = d.names ∧ d'.ids = d.ids

theorem numbersOnDemand (h : d.ids.WellLinked) (slot : Nat) : d.NumbersOnDemand slot := by
  refine ⟨fun number => claimId_of_numbered, fun hnone hspent => ?_, fun hnone hspent => ?_⟩
  · rcases claimId_of_unnumbered h hnone with ⟨id, hfree, hclaim⟩ | ⟨-, hspent', -⟩
    · have hunused : ∀ other, d.idOf? other ≠ some id := fun other hother => hfree.not_held ⟨other, hother⟩
      refine ⟨id, _, hclaim, hfree, rfl, ?_, fun other => idOf?_of_push rfl other⟩
      rw [owners_push h hnone hunused rfl, if_pos rfl]
    · exact absurd hspent' hspent
  · rcases claimId_of_unnumbered h hnone with ⟨id, hfree, -⟩ | ⟨pool, -, -, -, hclaim⟩
    · exact absurd hspent hfree.not_spent
    · exact ⟨_, hclaim, rfl, rfl⟩

theorem claimId_ne_index (h : d.ids.WellLinked) (slot : Nat) (error : IndexError) :
    (d.claimId slot).1 ≠ .error (.index error) := by
  cases hid : d.idOf? slot with
  | some number =>
    rw [claimId_of_numbered hid]
    nofun
  | none =>
    rcases claimId_of_unnumbered h hid with ⟨id, -, hclaim⟩ | ⟨pool, -, -, -, hclaim⟩ <;> rw [hclaim] <;> nofun

theorem run_refused (h : d.ids.WellLinked) {error : NumberingError} (hclaim : d.claimId slot = (.error error, d'))
    {later : List DirectoryRequest} (hkeeps : ∀ request ∈ later, request.KeepsPool) {other : Nat}
    (hnone : (d'.run later).idOf? other = none) :
    (d'.run later).claimId other = (.error (.pool .exhausted), d'.run later) := by
  refine claimId_of_dry ?_ hnone
  cases hid : d.idOf? slot with
  | some number =>
    rw [claimId_of_numbered hid] at hclaim
    cases hclaim
  | none =>
    rcases claimId_of_unnumbered h hid with ⟨id, -, hissued⟩ | ⟨pool, -, hdry, -, hrefused⟩
    · rw [hissued] at hclaim
      cases hclaim
    · rw [hrefused] at hclaim
      cases hclaim
      exact Int.lt_of_le_of_lt (cursor_run_le (d := { d with pool }) h hkeeps) hdry

/-- Numbering over whole runs. A number leads to the newest of the slots that were given it and still have it, and
the pool gives out the greatest free id; as long as it is not replaced, no id comes twice and a refusal is final. -/
theorem run_numbering (buckets : Nat) (requests : List DirectoryRequest) :
    let d := (empty buckets).run requests
    (∀ n < 0, d.slotNumbered? n = none) ∧
    (∀ n, 0 ≤ n → d.slotNumbered? n =
      (((empty buckets).gifts requests).find? fun g => g.2 = n ∧ d.idOf? g.1 = some n).map Prod.fst) ∧
    (∀ slot number, ∃ d', d.setId slot number = .ok d' ∧ d'.names = d.names ∧ d'.pool = d.pool ∧ ∀ other,
      d'.idOf? other = if other = slot then (if number < 0 then none else some number) else d.idOf? other) ∧
    (∀ slot, d.NumbersOnDemand slot ∧ ∀ error, (d.claimId slot).1 ≠ .error (.index error)) ∧
    ∀ later : List DirectoryRequest, (∀ request ∈ later, request.KeepsPool) →
      (d.issued later).Pairwise (· > ·) ∧
      ∀ slot error d', d.claimId slot = (.error error, d') → ∀ other, (d'.run later).idOf? other = none →
        (d'.run later).claimId other = (.error (.pool .exhausted), d'.run later) := by
  intro d
  obtain ⟨h, hlog⟩ := (recorded_empty buckets).run (HashIndex.wellLinked_empty buckets) requests
  rw [List.append_nil] at hlog
  refine ⟨fun n hneg => if_pos hneg, fun n hn => ?_, fun slot number => ?_, fun slot => ?_, fun later hkeeps => ?_⟩
  · rw [d.slotNumbered?_eq_head? hn]
    have hfind := hlog n fun _ => true
    rw [← List.head?_filter, List.filter_true] at hfind
    simpa only [and_true] using hfind
  · obtain ⟨d', hset, hnames, hpool, -, hid⟩ := exists_setId_eq_ok h slot number
    exact ⟨d', hset, hnames, hpool, hid⟩
  · exact ⟨numbersOnDemand h slot, claimId_ne_index h slot⟩
  · exact ⟨pairwise_issued h hkeeps, fun slot error d' hclaim other hnone => run_refused h hclaim hkeeps hnone⟩

end Directory

end FrameTable
