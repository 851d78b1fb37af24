import FrameTable.Flag.Reading

namespace FrameTable

namespace Flag

variable {find : String → Option Definition} {text other name : String} {c : Char}

def separators : List Char := [',', '+', '|', ' ', '\t', '\x0c', '\r']

/-- A piece of the text that has no separator in it and cannot be made longer. -/
structure Mnemonic (text name : String) : Prop where
  nonempty : name.toList ≠ []
  unseparated : ∀ c ∈ name.toList, c ∉ separators
  maximal : ∃ before after, text.toList = before ++ name.toList ++ after ∧
    (∀ c ∈ before.getLast?, c ∈ separators) ∧ ∀ c ∈ after.head?, c ∈ separators

def Mentions (text name : String) : Prop :=
  ∃ mnemonic, Mnemonic text mnemonic ∧ Text.same mnemonic name = true

theorem isSeparator_iff : isSeparator c = true ↔ c ∈ separators := by
  simp [isSeparator, separators, or_assoc]

theorem exists_around_of_mem_splitOnP {α : Type} {p : α → Bool} {xs piece : List α} (h : piece ∈ xs.splitOnP p) :
    (∀ a ∈ piece, p a = false) ∧ ∃ before after, xs = before ++ piece ++ after ∧
      (∀ a ∈ before.getLast?, p a = true) ∧ ∀ a ∈ after.head?, p a = true := by
  induction hlength : xs.length using Nat.strongRecOn generalizing xs with
  | ind n ih =>
    by_cases hany : ∃ sep ∈ xs, p sep = true
    · -- A text with a separator is two texts, each with pieces of its own.
      obtain ⟨sep, hmem, hsep⟩ := hany
      obtain ⟨left, right, rfl⟩ := List.append_of_mem hmem
      rw [List.length_append, List.length_cons] at hlength
      rw [List.splitOnP_append_cons left right hsep, List.mem_append] at h
      rcases h with hleft | hright
      · obtain ⟨hpiece, before, after, rfl, hbefore, hafter⟩ := ih left.length (by omega) hleft rfl
        refine ⟨hpiece, before, after ++ sep :: right, by simp, hbefore, fun a ha => ?_⟩
        cases after with
        | nil => exact Option.some.inj ha ▸ hsep
        | cons first after => exact hafter a ha
      · obtain ⟨hpiece, before, after, rfl, hbefore, hafter⟩ := ih right.length (by omega) hright rfl
        refine ⟨hpiece, left ++ sep :: before, after, by simp, fun a ha => ?_, hafter⟩
        rw [List.getLast?_append, List.getLast?_cons] at ha
        cases hlast : before.getLast? with
        | none =>
          rw [hlast] at ha
          exact Option.some.inj ha ▸ hsep
        | some last =>
          rw [hlast] at ha
          exact hbefore a (hlast.trans ha)
    · have hnone : ∀ a ∈ xs, p a = false := fun a ha => eq_false_of_ne_true fun hsep => hany ⟨a, ha, hsep⟩
      rw [List.splitOnP_eq_singleton hnone, List.mem_singleton] at h
      subst h
      exact ⟨hnone, [], [], by simp, by simp, by simp⟩

theorem mem_splitOnP_append {α : Type} {p : α → Bool} {before piece after : List α} (hpiece : ∀ a ∈ piece, p a = false)
    (hbefore : ∀ a ∈ before.getLast?, p a = true) (hafter : ∀ a ∈ after.head?, p a = true) :
    piece ∈ (before ++ piece ++ after).splitOnP p := by
  have hfirst : piece ∈ (piece ++ after).splitOnP p := by
    cases after with
    | nil => simp [List.splitOnP_eq_singleton hpiece]
    | cons sep after => simp [List.splitOnP_append_cons _ _ (hafter sep rfl), List.splitOnP_eq_singleton hpiece]
  cases hend : before.getLast? with
  | none =>
    obtain rfl := List.getLast?_eq_none_iff.mp hend
    exact hfirst
  | some sep =>
    have hsep : p sep = true := hbefore sep hend
    obtain ⟨rest, rfl⟩ := List.getLast?_eq_some_iff.mp hend
    rw [List.append_assoc, List.append_assoc, List.singleton_append, List.splitOnP_append_cons _ _ hsep]
    exact List.mem_append_right _ hfirst

theorem mem_splitOnP_iff {α : Type} {p : α → Bool} {xs piece : List α} : piece ∈ xs.splitOnP p ↔
    (∀ a ∈ piece, p a = false) ∧ ∃ before after, xs = before ++ piece ++ after ∧
      (∀ a ∈ before.getLast?, p a = true) ∧ ∀ a ∈ after.head?, p a = true := by
  refine ⟨exists_around_of_mem_splitOnP, ?_⟩
  rintro ⟨hpiece, before, after, rfl, hbefore, hafter⟩
  exact mem_splitOnP_append hpiece hbefore hafter

theorem mem_mnemonics_iff : name ∈ mnemonics text ↔ Mnemonic text name := by
  have hpiece : name ∈ mnemonics text ↔ name.toList ≠ [] ∧ name.toList ∈ text.toList.splitOnP isSeparator := by
    simp only [mnemonics, List.mem_map, List.mem_filter]
    constructor
    · rintro ⟨piece, ⟨hmem, hsome⟩, rfl⟩
      rw [String.toList_ofList]
      exact ⟨by simpa using hsome, hmem⟩
    · rintro ⟨hsome, hmem⟩
      exact ⟨name.toList, ⟨hmem, by simpa using hsome⟩, String.ofList_toList⟩
  simp only [hpiece, mem_splitOnP_iff, ← Bool.not_eq_true, isSeparator_iff]
  exact ⟨fun ⟨hsome, hnone, hmaximal⟩ => ⟨hsome, hnone, hmaximal⟩,
    fun ⟨hsome, hnone, hmaximal⟩ => ⟨hsome, hnone, hmaximal⟩⟩

def bit (w : UInt32) (i : Nat) : Bool := w.toBitVec.getLsbD i

theorem eq_of_bit_eq {a b : UInt32} (h : ∀ i, bit a i = bit b i) : a = b :=
  UInt32.eq_of_toBitVec_eq (BitVec.eq_of_getLsbD_eq fun i _ => h i)

theorem bit_or (a b : UInt32) (i : Nat) : bit (a ||| b) i = (bit a i || bit b i) := by
  rw [bit, UInt32.toBitVec_or, BitVec.getLsbD_or, bit, bit]

theorem bit_zero (i : Nat) : bit 0 i = false :=
  BitVec.getLsbD_zero

theorem bit_union (definitions : List Definition) (i : Nat) :
    bit (union definitions) i = definitions.any fun d => bit d.bits i := by
  have hfold : ∀ start, bit (definitions.foldl (fun bits d => bits ||| d.bits) start) i =
      (bit start i || definitions.any fun d => bit d.bits i) := by
    induction definitions with
    | nil => simp
    | cons d definitions ih =>
      intro start
      rw [List.foldl_cons, ih, bit_or, List.any_cons, Bool.or_assoc]
  rw [union, hfold, bit_zero, Bool.false_or]

def readBy (find : String → Option Definition) (text : String) : UInt32 :=
  union ((mnemonics text).filterMap find)

def Caseless (find : String → Option Definition) : Prop :=
  ∀ name name', Text.same name name' = true → find name = find name'

/-- The texts name the same, apart from mnemonics that `find` does not know. -/
def SameKnown (find : String → Option Definition) (text other : String) : Prop :=
  ∀ name, (find name).isSome → (Mentions text name ↔ Mentions other name)

theorem bit_readBy (find : String → Option Definition) (text : String) (i : Nat) :
    bit (readBy find text) i = true ↔ ∃ name, Mnemonic text name ∧ ∃ d, find name = some d ∧ bit d.bits i = true := by
  simp only [readBy, bit_union, List.any_eq_true, List.mem_filterMap, mem_mnemonics_iff]
  constructor
  · rintro ⟨d, ⟨name, hname, hfind⟩, hbit⟩
    exact ⟨name, hname, d, hfind, hbit⟩
  · rintro ⟨name, hname, d, hfind, hbit⟩
    exact ⟨d, ⟨name, hname, hfind⟩, hbit⟩

theorem bit_readBy_of_caseless (hfind : Caseless find) (text : String) (i : Nat) :
    bit (readBy find text) i = true ↔ ∃ name, Mentions text name ∧ ∃ d, find name = some d ∧ bit d.bits i = true := by
  rw [bit_readBy]
  constructor
  · rintro ⟨name, hname, hbit⟩
    exact ⟨name, ⟨name, hname, Text.same_refl name⟩, hbit⟩
  · rintro ⟨name, ⟨mnemonic, hmem, hsame⟩, hbit⟩
    exact ⟨mnemonic, hmem, hfind mnemonic name hsame ▸ hbit⟩

theorem readBy_congr (hfind : Caseless find) (h : SameKnown find text other) :
    readBy find text = readBy find other := by
  refine eq_of_bit_eq fun i => Bool.eq_iff_iff.mpr ?_
  rw [bit_readBy_of_caseless hfind, bit_readBy_of_caseless hfind]
  constructor
  all_goals
    rintro ⟨name, hmentions, d, hd, hbit⟩
    have hknown : (find name).isSome := by rw [hd]; rfl
  · exact ⟨name, (h name hknown).mp hmentions, d, hd, hbit⟩
  · exact ⟨name, (h name hknown).mpr hmentions, d, hd, hbit⟩

theorem mnemonics_join (hc : c ∈ separators) (text other : String) :
    mnemonics (text.push c ++ other) = mnemonics text ++ mnemonics other := by
  have htext : (text.push c ++ other).toList = text.toList ++ c :: other.toList := by
    simp only [String.toList_append, String.toList_push, List.append_assoc, List.singleton_append]
  simp only [mnemonics, htext, List.splitOnP_append_cons _ _ (isSeparator_iff.mpr hc), List.filter_append,
    List.map_append]

theorem readBy_join (hc : c ∈ separators) (find : String → Option Definition) (text other : String) :
    readBy find (text.push c ++ other) = readBy find text ||| readBy find other := by
  refine eq_of_bit_eq fun i => ?_
  simp only [readBy, bit_or, bit_union, mnemonics_join hc, List.filterMap_append, List.any_append]

end Flag

namespace FlagSet

theorem ext_word {s u : FlagSet} (h : ∀ w, s.word w = u.word w) : s = u := by
  cases s
  cases u
  simpa only [FlagSet.mk.injEq] using ⟨h .flags, h .flags2, h .flags3, h .flags4⟩

theorem word_foldl_insert (definitions : List Flag.Definition) (w : Flag.Word) (s : FlagSet) (i : Nat) :
    Flag.bit ((definitions.foldl insert s).word w) i =
      (Flag.bit (s.word w) i || Flag.bit (Flag.union (definitions.filter (·.word = w))) i) := by
  induction definitions generalizing s with
  | nil => simp [Flag.union, Flag.bit_zero]
  | cons d definitions ih =>
    rw [List.foldl_cons, ih, word_insert]
    split
    · next hw =>
      rw [List.filter_cons_of_pos (by simpa using hw), Flag.bit_or, Flag.bit_union, Flag.bit_union, List.any_cons,
        Bool.or_assoc]
    · next hw => rw [List.filter_cons_of_neg (by simpa using hw)]

end FlagSet

namespace Flag

variable {table : List Definition} {text name : String} {word : Word}

theorem caseless_lookup? (table : List Definition) : Caseless (lookup? table) := by
  intro name name' hsame
  simp only [lookup?, Text.same_congr_right hsame]

theorem caseless_lookupIn? (word : Word) (table : List Definition) : Caseless (lookupIn? word table) := by
  intro name name' hsame
  simp only [lookupIn?, Text.same_congr_right hsame]

def lookupFor? (word : Word) (name : String) : Option Definition :=
  (lookup? thingFlags name).filter (·.word = word)

theorem caseless_lookupFor? (word : Word) : Caseless (lookupFor? word) := by
  intro name name' hsame
  rw [lookupFor?, caseless_lookup? thingFlags name name' hsame, lookupFor?]

theorem word_readSet (word : Word) (text : String) : (readSet text).word word = readBy (lookupFor? word) text := by
  refine eq_of_bit_eq fun i => ?_
  have hempty : bit (({} : FlagSet).word word) i = false := by
    cases word <;> exact bit_zero i
  rw [readSet, FlagSet.word_foldl_insert, hempty, Bool.false_or, List.filter_filterMap]
  rfl

def slide : Definition := ⟨"SLIDE", 0x2000, .flags⟩

theorem lookup?_of_mem : ∀ d ∈ thingFlags, d = slide ∨ lookup? thingFlags d.name = some d := by
  decide +kernel

theorem lookupIn?_slide : lookupIn? .flags thingFlags slide.name = some slide := by
  decide +kernel

theorem lookupFor?_slide : lookupFor? .flags slide.name = none := by
  decide +kernel

theorem of_lookup? {d : Definition} (h : lookup? table name = some d) : d ∈ table ∧ Text.same d.name name = true :=
  ⟨List.mem_of_find?_eq_some h, List.find?_some (p := fun d : Definition => Text.same d.name name) h⟩

theorem of_lookupIn? {d : Definition} (h : lookupIn? word table name = some d) :
    d ∈ table ∧ Text.same d.name name = true ∧ d.word = word := by
  have hmatch := List.find?_some (p := fun d : Definition => Text.same d.name name && d.word == word) h
  exact ⟨List.mem_of_find?_eq_some h, by simpa using hmatch⟩

theorem of_lookupFor? {d : Definition} (h : lookupFor? word name = some d) :
    lookup? thingFlags name = some d ∧ d.word = word := by
  obtain ⟨hlookup, hword⟩ := Option.filter_eq_some_iff.mp h
  exact ⟨hlookup, of_decide_eq_true hword⟩

theorem lookupIn?_eq_some_iff {d : Definition} : lookupIn? word thingFlags name = some d ↔
    lookupFor? word name = some d ∨ word = .flags ∧ Text.same slide.name name = true ∧ d = slide := by
  constructor
  · intro h
    obtain ⟨hmem, hsame, hword⟩ := of_lookupIn? h
    rcases lookup?_of_mem d hmem with rfl | hfirst
    · exact .inr ⟨hword.symm, hsame, rfl⟩
    · rw [caseless_lookup? thingFlags d.name name hsame] at hfirst
      exact .inl (Option.filter_eq_some_iff.mpr ⟨hfirst, decide_eq_true hword⟩)
  · rintro (h | ⟨rfl, hsame, rfl⟩)
    · obtain ⟨hlookup, hword⟩ := of_lookupFor? h
      obtain ⟨hmem, hsame⟩ := of_lookup? hlookup
      cases hin : lookupIn? word thingFlags name with
      | none =>
        have hmiss := List.find?_eq_none.mp hin d hmem
        rw [hsame, hword] at hmiss
        simp at hmiss
      | some d' =>
        obtain ⟨hmem', hsame', hword'⟩ := of_lookupIn? hin
        rcases lookup?_of_mem d' hmem' with rfl | hfirst
        · have hnone : lookupFor? word slide.name = none := hword' ▸ lookupFor?_slide
          rw [← caseless_lookupFor? word slide.name name hsame', hnone] at h
          cases h
        · rw [caseless_lookup? thingFlags d'.name name hsame', hlookup] at hfirst
          exact hfirst.symm
    · exact (caseless_lookupIn? .flags thingFlags slide.name name hsame).symm.trans lookupIn?_slide

theorem bit_readWord (word : Word) (text : String) (i : Nat) : bit (readWord word text) i = true ↔
    bit ((readSet text).word word) i = true ∨
      word = .flags ∧ Mentions text slide.name ∧ bit slide.bits i = true := by
  rw [word_readSet, show readWord word text = readBy (lookupIn? word thingFlags) text from rfl, bit_readBy, bit_readBy]
  constructor
  · rintro ⟨name, hname, d, hd, hbit⟩
    rcases lookupIn?_eq_some_iff.mp hd with hd | ⟨hword, hsame, rfl⟩
    · exact .inl ⟨name, hname, d, hd, hbit⟩
    · exact .inr ⟨hword, ⟨name, hname, Text.same_comm _ _ ▸ hsame⟩, hbit⟩
  · rintro (⟨name, hname, d, hd, hbit⟩ | ⟨rfl, ⟨name, hname, hsame⟩, hbit⟩)
    · exact ⟨name, hname, d, lookupIn?_eq_some_iff.mpr (.inl hd), hbit⟩
    · exact ⟨name, hname, slide, lookupIn?_eq_some_iff.mpr (.inr ⟨rfl, Text.same_comm _ _ ▸ hsame, rfl⟩), hbit⟩

theorem readWord_eq_word (h : word = .flags → ¬Mentions text slide.name) :
    readWord word text = (readSet text).word word := by
  refine eq_of_bit_eq fun i => Bool.eq_iff_iff.mpr ?_
  rw [bit_readWord, or_iff_left]
  rintro ⟨hword, hmentions, -⟩
  exact h hword hmentions

theorem bit_word_readSet (text : String) : bit ((readSet text).word .flags) 13 = false := by
  have hentries : ∀ d ∈ thingFlags, d.word = .flags → bit d.bits 13 = true → d = slide := by decide +kernel
  refine Bool.eq_false_iff.mpr fun hbit => ?_
  rw [word_readSet, bit_readBy] at hbit
  obtain ⟨name, -, d, hd, hbit⟩ := hbit
  obtain ⟨hlookup, hword⟩ := of_lookupFor? hd
  obtain ⟨hmem, hsame⟩ := of_lookup? hlookup
  obtain rfl := hentries d hmem hword hbit
  rw [← caseless_lookupFor? .flags slide.name name hsame, lookupFor?_slide] at hd
  cases hd

theorem readWord_eq_or_iff : readWord .flags text = (readSet text).word .flags ||| slide.bits ↔
    Mentions text slide.name := by
  constructor
  · intro h
    have hbit : bit (readWord .flags text) 13 = true := by
      rw [h, bit_or, show bit slide.bits 13 = true from rfl, Bool.or_true]
    rcases (bit_readWord .flags text 13).mp hbit with hset | ⟨-, hmentions, -⟩
    · rw [bit_word_readSet] at hset
      cases hset
    · exact hmentions
  · intro hmentions
    refine eq_of_bit_eq fun i => Bool.eq_iff_iff.mpr ?_
    rw [bit_readWord, bit_or, Bool.or_eq_true]
    exact or_congr_right ⟨fun h => h.2.2, fun hbit => ⟨rfl, hmentions, hbit⟩⟩

/-- Reading one word of flags gives that word of all flags, but for the mnemonic with bits in two words. Every reading
is that of the set of mnemonics it knows. -/
theorem readings_agree (text : String) :
    (∀ word i, bit (readWord word text) i = true ↔
      ∃ name, Mentions text name ∧ ∃ d, lookupIn? word thingFlags name = some d ∧ bit d.bits i = true) ∧
    (∀ table i, bit (readTable table text) i = true ↔
      ∃ name, Mentions text name ∧ ∃ d, lookup? table name = some d ∧ bit d.bits i = true) ∧
    (∀ word ≠ .flags, readWord word text = (readSet text).word word) ∧
    (readWord .flags text = (readSet text).word .flags ||| 0x2000 ↔ Mentions text "SLIDE") ∧
    (¬Mentions text "SLIDE" → readWord .flags text = (readSet text).word .flags) ∧
    (∀ other, SameKnown (lookup? thingFlags) text other → readSet text = readSet other) ∧
    (∀ word other, SameKnown (lookupIn? word thingFlags) text other → readWord word text = readWord word other) ∧
    (∀ table other, SameKnown (lookup? table) text other → readTable table text = readTable table other) ∧
    ∀ c ∈ separators, ∀ other,
      (∀ word, (readSet (text.push c ++ other)).word word = (readSet text).word word ||| (readSet other).word word) ∧
      (∀ word, readWord word (text.push c ++ other) = readWord word text ||| readWord word other) ∧
      ∀ table, readTable table (text.push c ++ other) = readTable table text ||| readTable table other := by
  refine ⟨fun word => bit_readBy_of_caseless (caseless_lookupIn? word thingFlags) text,
    fun table => bit_readBy_of_caseless (caseless_lookup? table) text,
    fun word hword => readWord_eq_word fun h => absurd h hword, readWord_eq_or_iff,
    fun hnone => readWord_eq_word fun _ => hnone, ?_, ?_, ?_, fun c hc other => ⟨?_, ?_, ?_⟩⟩
  · intro other h
    refine FlagSet.ext_word fun word => ?_
    rw [word_readSet, word_readSet]
    refine readBy_congr (caseless_lookupFor? word) fun name hknown => h name ?_
    obtain ⟨d, hd⟩ := Option.isSome_iff_exists.mp hknown
    rw [(of_lookupFor? hd).1]
    rfl
  · intro word other h
    exact readBy_congr (caseless_lookupIn? word thingFlags) h
  · intro table other h
    exact readBy_congr (caseless_lookup? table) h
  · intro word
    simp only [word_readSet, readBy_join hc]
  · intro word
    exact readBy_join hc (lookupIn? word thingFlags) text other
  · intro table
    exact readBy_join hc (lookup? table) text other

theorem readings_agree_slide :
    Mentions "Solid|slide" "SLIDE" ∧
      readWord .flags "Solid|slide" = (readSet "Solid|slide").word .flags ||| 0x2000 ∧ '+' ∈ separators ∧
      readWord .flags2 ("Solid|slide".push '+' ++ "slide") =
        readWord .flags2 "Solid|slide" ||| readWord .flags2 "slide" := by
  have hmentions : Mentions "Solid|slide" "SLIDE" :=
    ⟨"slide", mem_mnemonics_iff.mp (by decide +kernel), by decide +kernel⟩
  obtain ⟨-, -, -, hslide, -, -, -, -, hjoin⟩ := readings_agree "Solid|slide"
  have hplus : '+' ∈ separators := by decide
  exact ⟨hmentions, hslide.mpr hmentions, hplus, (hjoin '+' hplus "slide").2.1 .flags2⟩

end Flag

end FrameTable
