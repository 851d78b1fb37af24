import FrameTable.Section.Basic

namespace FrameTable

namespace Fields

variable {entries : List (String × FieldValue)} {f : Fields} {key query : String} {value : FieldValue}

theorem filter_lt_append_filter_gt (hsorted : entries.Pairwise fun a b => a.1 < b.1)
    (habsent : ∀ e ∈ entries, e.1 ≠ key) :
    entries.filter (·.1 < key) ++ entries.filter (key < ·.1) = entries := by
  induction entries with
  | nil => rfl
  | cons e entries ih =>
    obtain ⟨hfirst, hsorted⟩ := List.pairwise_cons.mp hsorted
    obtain ⟨hne, habsent⟩ := List.forall_mem_cons.mp habsent
    by_cases hlt : e.1 < key
    · rw [List.filter_cons_of_pos (by simpa using hlt), List.filter_cons_of_neg (by simpa using String.lt_asymm hlt)]
      exact congrArg (e :: ·) (ih hsorted habsent)
    · have hgt : key < e.1 := String.not_le.mp fun hle => hne (String.le_antisymm hle (String.not_lt.mp hlt))
      have hbehind : ∀ other ∈ e :: entries, key < other.1 :=
        List.forall_mem_cons.mpr ⟨hgt, fun other hother => String.lt_trans hgt (hfirst other hother)⟩
      have hlower : (e :: entries).filter (·.1 < key) = [] :=
        List.filter_eq_nil_iff.mpr fun other hother => by simpa using String.lt_asymm (hbehind other hother)
      have hupper : (e :: entries).filter (key < ·.1) = e :: entries :=
        List.filter_eq_self.mpr fun other hother => by simpa using hbehind other hother
      rw [hlower, hupper, List.nil_append]

theorem exists_entries_set (f : Fields) (key : String) (value : FieldValue) : ∃ lower upper,
    (f.set key value).entries = lower ++ (key, value) :: upper ∧
      lower ++ upper = f.entries.filter fun e => !Text.same e.1 key := by
  refine ⟨(f.erase key).entries.filter (·.1 < key), (f.erase key).entries.filter (key < ·.1), rfl, ?_⟩
  refine filter_lt_append_filter_gt (f.erase key).sorted fun e he heq => ?_
  have hother : Text.same e.1 key = false := by simpa using (List.mem_filter.mp he).2
  rw [heq, Text.same_refl] at hother
  cases hother

theorem filter_entries_set (f : Fields) (key : String) (value : FieldValue) :
    (f.set key value).entries.filter (fun e => Text.same e.1 key) = [(key, value)] := by
  obtain ⟨lower, upper, hentries, hothers⟩ := exists_entries_set f key value
  have hnone : ∀ e ∈ lower ++ upper, ¬Text.same e.1 key = true := fun e he => by
    rw [hothers] at he
    simpa using (List.mem_filter.mp he).2
  obtain ⟨hlower, hupper⟩ := List.forall_mem_append.mp hnone
  have hwritten : Text.same (key, value).1 key = true := Text.same_refl key
  rw [hentries, List.filter_append, List.filter_eq_nil_iff.mpr hlower,
    List.filter_cons_of_pos (p := fun e : String × FieldValue => Text.same e.1 key) hwritten,
    List.filter_eq_nil_iff.mpr hupper, List.nil_append]

theorem filter_entries_set_of_other (hother : Text.same query key = false) :
    (f.set key value).entries.filter (fun e => Text.same e.1 query) =
      f.entries.filter (fun e => Text.same e.1 query) := by
  obtain ⟨lower, upper, hentries, hothers⟩ := exists_entries_set f key value
  have hspelling : ∀ e ∈ f.entries, Text.same e.1 query = true → (!Text.same e.1 key) = true := by
    intro e _ hsame
    rw [Text.same_congr hsame, hother]
    rfl
  calc (f.set key value).entries.filter (fun e => Text.same e.1 query)
      = (lower ++ upper).filter (fun e => Text.same e.1 query) := by
        rw [Text.same_comm] at hother
        rw [hentries, List.filter_append, List.filter_append, List.filter_cons_of_neg (by simpa using hother)]
    _ = f.entries.filter (fun e => Text.same e.1 query) := by
        rw [hothers, List.filter_filter]
        exact List.filter_congr fun e he => by
          cases hsame : Text.same e.1 query with
          | false => rfl
          | true => exact hspelling e he hsame

theorem find?_eq_of_spellings (f : Fields) (query : String) :
    let spellings := f.entries.filter fun e => Text.same e.1 query
    f.find? query = (spellings.find? (·.1 == query) <|> spellings.head?).map (·.2) := by
  have hexact : (fun e : String × FieldValue => decide (Text.same e.1 query = true ∧ (e.1 == query) = true)) =
      fun e => e.1 == query := by
    funext e
    cases heq : e.1 == query with
    | false => simp
    | true => simp [eq_of_beq heq]
  simp only [find?, List.find?_filter, List.head?_filter, hexact]

theorem find?_set (f : Fields) (key : String) (value : FieldValue) (query : String) :
    (f.set key value).find? query = if Text.same query key then some value else f.find? query := by
  rw [find?_eq_of_spellings]
  cases hsame : Text.same query key with
  | true =>
    simp only [Text.same_congr_right hsame, filter_entries_set]
    cases heq : key == query <;> simp [heq]
  | false =>
    rw [filter_entries_set_of_other hsame, if_neg Bool.false_ne_true, find?_eq_of_spellings]

end Fields

namespace Section

variable {s : Section} {key query : String} {value : FieldValue}

theorem value?_set (s : Section) (key : String) (value : FieldValue) (query : String) :
    (s.set key value).value? query = if Text.same query key then some value else s.value? query :=
  Fields.find?_set s.fields key value query

structure Answers (s : Section) (query : String) (held : Option FieldValue) : Prop where
  value? : s.value? query = held
  has : s.has query = held.isSome
  text? : s.text? query = held.bind (·.toText?)
  int? : s.int? query = held.bind (·.int?)
  bool? : s.bool? query = held.bind (·.bool?)
  list? : s.list? query = held.map (·.toList)

theorem answers_of_value? {held : Option FieldValue} (h : s.value? query = held) : s.Answers query held := by
  subst h
  exact ⟨rfl, rfl, rfl, rfl, rfl, rfl⟩

def setAll (s : Section) (writes : List (String × FieldValue)) : Section :=
  writes.foldl (fun s write => s.set write.1 write.2) s

def lastWritten? (writes : List (String × FieldValue)) (query : String) : Option FieldValue :=
  (writes.reverse.find? fun write => Text.same query write.1).map (·.2)

theorem value?_setAll (s : Section) (writes : List (String × FieldValue)) (query : String) :
    (s.setAll writes).value? query = (lastWritten? writes query).or (s.value? query) := by
  induction writes generalizing s with
  | nil => rfl
  | cons write writes ih =>
    have hfirst : (s.set write.1 write.2).value? query =
        (lastWritten? [write] query).or (s.value? query) := by
      rw [value?_set]
      cases hsame : Text.same query write.1 <;> simp [lastWritten?, hsame]
    have hlast : lastWritten? (write :: writes) query =
        (lastWritten? writes query).or (lastWritten? [write] query) := by
      simp only [lastWritten?, List.reverse_cons, List.find?_append, Option.map_or, List.reverse_nil, List.nil_append]
    calc (s.setAll (write :: writes)).value? query
        = (lastWritten? writes query).or ((s.set write.1 write.2).value? query) := ih (s.set write.1 write.2)
      _ = (lastWritten? (write :: writes) query).or (s.value? query) := by rw [hfirst, hlast, Option.or_assoc]

theorem value?_set_comm {other : String} {value' : FieldValue} (hother : Text.same key other = false) :
    ((s.set key value).set other value').value? query = ((s.set other value').set key value).value? query := by
  simp only [value?_set]
  cases hkey : Text.same query key with
  | true => simp [Text.same_congr hkey, hother]
  | false => simp

/-- The fields are a map whose keys are compared without regard to case. A write is what every spelling of its key
finds, and it leaves nothing else under them. -/
theorem set_spellings (s : Section) (key : String) (value : FieldValue) :
    (∀ query, (s.set key value).Answers query (if Text.same query key then some value else s.value? query)) ∧
    (s.set key value).fields.entries.filter (fun e => Text.same e.1 key) = [(key, value)] ∧
    (∀ other value', Text.same key other = false → ∀ query,
      ((s.set key value).set other value').value? query = ((s.set other value').set key value).value? query) ∧
    ∀ writes query, (s.setAll writes).Answers query ((lastWritten? writes query).or (s.value? query)) := by
  refine ⟨fun query => answers_of_value? (value?_set s key value query), Fields.filter_entries_set s.fields key value,
    fun other value' hother query => value?_set_comm hother, fun writes query => ?_⟩
  exact answers_of_value? (value?_setAll s writes query)

example :
    let s : Section :=
      { title := "S_RUN", fields := .ofList [("Tics", .int 1), ("action", .text "Look"), ("tics", .int 2)] }
    [s.int? "TICS", s.int? "tics", (s.set "tICS" (.int 3)).int? "Tics", (s.set "tICS" (.int 3)).int? "tics"] =
      [some 1, some 2, some 3, some 3] ∧
    (s.set "tICS" (.int 3)).fields.entries = [("action", .text "Look"), ("tICS", .int 3)] := by
  decide +kernel

end Section

end FrameTable
