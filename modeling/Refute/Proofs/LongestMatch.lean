import Refute.Token.Lexicon

/-!
# The longest mark

A lexicon keeps its marks ordered by their number of characters, and takes the first one that a
text starts with. A mark that is added replaces the earlier one of its spelling and stands behind
all marks that are at least as long. So after any additions the marks are the latest entries of the
history, longer spellings first, and the mark taken is the longest one that the text starts with.

Marks are ordered by characters, but the extent of a mark is counted in bytes. Of two spellings that
one text starts with, the shorter is the start of the longer. So the two orders agree, and the bytes
counted end where a character of the text ends.
-/

namespace Refute

namespace Lexicon

variable {lexicon : Lexicon} {history marks : List Spelling} {mark : Spelling}
variable {text spelling other : String} {symbol : Symbol} {size : Nat}

/-! ## Placing a mark -/

/-- The first mark is at least as long as the second, so it may stand before it. -/
def longerFirst (first second : Spelling) : Bool :=
  second.1.length ≤ first.1.length

/-- Marks are compared by their numbers of characters. -/
theorem longerFirst_iff {first second : Spelling} :
    longerFirst first second = true ↔ second.1.length ≤ first.1.length := by
  rw [longerFirst, decide_eq_true_eq]

/-- The order of marks is transitive. -/
theorem longerFirst_trans (first second third : Spelling) (before : longerFirst first second)
    (after : longerFirst second third) : longerFirst first third :=
  longerFirst_iff.2 (Nat.le_trans (longerFirst_iff.1 after) (longerFirst_iff.1 before))

/-- Of two marks one may stand before the other. -/
theorem longerFirst_total (first second : Spelling) :
    longerFirst first second || longerFirst second first := by
  rw [Bool.or_eq_true, longerFirst_iff, longerFirst_iff]
  exact Nat.le_total _ _

/-- No mark stands behind a shorter one. -/
def Ordered (marks : List Spelling) : Prop :=
  marks.Pairwise fun first second => longerFirst first second

/-- Sorting gives ordered marks. -/
theorem ordered_mergeSort (marks : List Spelling) : Ordered (marks.mergeSort longerFirst) :=
  List.pairwise_mergeSort longerFirst_trans longerFirst_total marks

/-- A mark that no other one is longer than stays in front. -/
theorem mergeSort_cons_of_le {first : Spelling}
    (atMost : ∀ entry ∈ marks, longerFirst first entry) :
    (first :: marks).mergeSort longerFirst = first :: marks.mergeSort longerFirst := by
  obtain ⟨before, after, sorted, split, exceeds⟩ :=
    List.mergeSort_cons longerFirst_trans longerFirst_total first marks
  rw [sorted, split]
  cases before with
  | nil => rfl
  | cons entry earlier =>
    have listed : entry ∈ marks := by
      rw [← (List.mergeSort_perm marks longerFirst).mem_iff, split]
      exact List.mem_cons_self
    have exceeding := exceeds entry List.mem_cons_self
    rw [atMost entry listed] at exceeding
    contradiction

/-- A mark that is longer than all others goes to the front, and they keep their order. -/
theorem mergeSort_concat_of_lt (ordered : Ordered marks)
    (longer : ∀ entry ∈ marks, entry.1.length < mark.1.length) :
    (marks ++ [mark]).mergeSort longerFirst = mark :: marks := by
  induction marks with
  | nil => rw [List.nil_append, List.mergeSort_singleton]
  | cons first others ih =>
    obtain ⟨atMost, rest⟩ := List.pairwise_cons.1 ordered
    obtain ⟨before, after, sorted, split, exceeds⟩ :=
      List.mergeSort_cons longerFirst_trans longerFirst_total first (others ++ [mark])
    rw [ih rest fun entry member => longer entry (List.mem_cons_of_mem first member)] at split
    rw [List.cons_append, sorted]
    -- What goes before the first mark is longer than it: the new mark, and none of the others.
    cases before with
    | nil =>
      obtain rfl : mark :: others = after := split
      have inOrder := ordered_mergeSort (first :: (others ++ [mark]))
      rw [sorted] at inOrder
      have le := longerFirst_iff.1 (List.rel_of_pairwise_cons inOrder List.mem_cons_self)
      exact absurd (longer first List.mem_cons_self) (Nat.not_lt.2 le)
    | cons entry earlier =>
      obtain ⟨rfl, rfl⟩ := List.cons.inj split
      cases earlier with
      | nil => rfl
      | cons old _ =>
        have exceeding := exceeds old (by simp)
        rw [atMost old (by simp)] at exceeding
        contradiction

/-- To place a mark among ordered ones is to append it and to sort them, where marks of the same
length keep their order. -/
theorem place_eq_mergeSort (ordered : Ordered marks) (mark : Spelling) :
    place mark marks = (marks ++ [mark]).mergeSort longerFirst := by
  induction marks with
  | nil => rw [place, List.nil_append, List.mergeSort_singleton]
  | cons first others ih =>
    obtain ⟨atMost, rest⟩ := List.pairwise_cons.1 ordered
    by_cases moves : first.1.length < mark.1.length
    · rw [place, if_pos moves, mergeSort_concat_of_lt ordered]
      intro entry member
      rcases List.mem_cons.1 member with rfl | old
      · exact moves
      · exact Nat.lt_of_le_of_lt (longerFirst_iff.1 (atMost entry old)) moves
    · rw [place, if_neg moves, ih rest, List.cons_append, mergeSort_cons_of_le]
      intro entry member
      rcases List.mem_append.1 member with old | new
      · exact atMost entry old
      · rw [List.mem_singleton.1 new, longerFirst_iff]
        exact Nat.not_lt.1 moves

/-! ## The history of a lexicon -/

/-- The lexicon with the marks of a list added, from the first to the last. -/
def addMarks (lexicon : Lexicon) (additions : List Spelling) : Lexicon :=
  additions.foldl (fun lexicon mark => lexicon.addMark mark.1 mark.2) lexicon

/-- The symbol that the latest entry for a spelling gives it. -/
def latest? (history : List Spelling) (spelling : String) : Option Symbol :=
  history.reverse.lookup spelling

/-- A spelling has a latest entry exactly if it has any. -/
theorem isSome_latest?_iff :
    (latest? history spelling).isSome ↔ spelling ∈ history.map Prod.fst := by
  simp only [latest?, List.lookup_isSome_iff, List.mem_reverse, beq_iff_eq, List.mem_map]
  exact exists_congr fun entry => and_congr_right fun _ => eq_comm

/-- A new entry decides about its own spelling and about no other. -/
theorem latest?_concat (history : List Spelling) (mark : Spelling) (spelling : String) :
    latest? (history ++ [mark]) spelling =
      if spelling = mark.1 then some mark.2 else latest? history spelling := by
  obtain ⟨written, meaning⟩ := mark
  simp only [latest?, List.reverse_append, List.reverse_singleton, List.singleton_append,
    List.lookup_cons]
  by_cases same : spelling = written
  · rw [if_pos same, beq_iff_eq.2 same]
  · rw [if_neg same, beq_eq_false_iff_ne.2 same]

/-- The marks of the lexicon are the latest entries of the history, longer spellings first. -/
structure Records (lexicon : Lexicon) (history : List Spelling) : Prop where
  /-- No mark stands behind a shorter one. -/
  ordered : Ordered lexicon.marks
  /-- A spelling has the symbol of its latest entry and no other. -/
  mem_iff : ∀ spelling symbol,
    (spelling, symbol) ∈ lexicon.marks ↔ latest? history spelling = some symbol

/-- The empty lexicon records the empty history. -/
theorem records_empty : empty.Records [] where
  ordered := List.Pairwise.nil
  mem_iff spelling symbol := by simp [empty, latest?]

/-- To add a mark is to drop the one of its spelling, to append it and to sort the marks. -/
theorem marks_addMark (ordered : Ordered lexicon.marks) (spelling : String) (symbol : Symbol) :
    (lexicon.addMark spelling symbol).marks =
      ((lexicon.marks.filter fun mark => mark.1 != spelling) ++
        [(spelling, symbol)]).mergeSort longerFirst :=
  place_eq_mergeSort (ordered.filter _) (spelling, symbol)

/-- An addition is recorded as one more entry. -/
theorem Records.addMark (records : lexicon.Records history) (mark : Spelling) :
    (lexicon.addMark mark.1 mark.2).Records (history ++ [mark]) where
  ordered := by
    rw [marks_addMark records.ordered]
    exact ordered_mergeSort _
  mem_iff spelling symbol := by
    rcases mark with ⟨written, meaning⟩
    rw [marks_addMark records.ordered, (List.mergeSort_perm _ _).mem_iff, List.mem_append,
      List.mem_filter, records.mem_iff, List.mem_singleton, Prod.mk.injEq, bne_iff_ne,
      latest?_concat]
    by_cases same : spelling = written
    · simp only [same, ne_eq, not_true_eq_false, and_false, false_or, true_and, if_true,
        Option.some.injEq]
      exact eq_comm
    · simp only [same, ne_eq, not_false_eq_true, and_true, false_and, or_false, if_false]

/-- Marks that are added become the latest entries. -/
theorem Records.addMarks (records : lexicon.Records history) (additions : List Spelling) :
    (lexicon.addMarks additions).Records (history ++ additions) := by
  induction additions generalizing lexicon history with
  | nil => rwa [List.append_nil]
  | cons mark later ih =>
    rw [List.append_cons]
    exact ih (records.addMark mark)

/-- The reserved words of the language leave its marks as they are. -/
theorem records_standard : standard.Records standardMarks :=
  have records := records_empty.addMarks standardMarks
  ⟨records.ordered, records.mem_iff⟩

/-- The spellings of the marks are those of the entries. -/
theorem Records.mem_spellings_iff (records : lexicon.Records history) :
    spelling ∈ lexicon.marks.map Prod.fst ↔ spelling ∈ history.map Prod.fst := by
  refine Iff.trans ?_ isSome_latest?_iff
  rw [Option.isSome_iff_exists, List.mem_map]
  constructor
  · rintro ⟨mark, listed, rfl⟩
    exact ⟨mark.2, (records.mem_iff mark.1 mark.2).1 listed⟩
  · rintro ⟨symbol, latest⟩
    exact ⟨(spelling, symbol), (records.mem_iff spelling symbol).2 latest, rfl⟩

/-! ## The mark at the start of a text -/

/-- A text that starts with a spelling goes on behind it. -/
theorem exists_append_of_starts (starts : spelling.toList <+: text.toList) :
    ∃ rest, text = spelling ++ rest := by
  obtain ⟨rest, whole⟩ := starts
  refine ⟨String.ofList rest, String.toList_inj.1 ?_⟩
  rw [String.toList_append, String.toList_ofList, whole]

/-- The spelling is the longest one with an entry that the text starts with. -/
structure Longest (history : List Spelling) (text spelling : String) : Prop where
  /-- The spelling has an entry. -/
  entered : spelling ∈ history.map Prod.fst
  /-- The text starts with it. -/
  starts : spelling.toList <+: text.toList
  /-- No other one has more characters. -/
  longest : ∀ other ∈ history.map Prod.fst, other.toList <+: text.toList →
    other.length ≤ spelling.length

/-- All spellings that the text starts with are starts of the longest one. -/
theorem Longest.starts_of_starts (isLongest : Longest history text spelling)
    (entered : other ∈ history.map Prod.fst) (starts : other.toList <+: text.toList) :
    other.toList <+: spelling.toList := by
  apply List.prefix_of_prefix_length_le starts isLongest.starts
  rw [String.length_toList, String.length_toList]
  exact isLongest.longest other entered starts

/-- A text starts with one longest spelling at most. -/
theorem Longest.eq (isLongest : Longest history text spelling)
    (otherLongest : Longest history text other) : spelling = other := by
  have shorter := otherLongest.starts_of_starts isLongest.entered isLongest.starts
  have longer := isLongest.starts_of_starts otherLongest.entered otherLongest.starts
  exact String.toList_inj.1 (shorter.eq_of_length_le longer.length_le)

/-- The spelling with the most characters also has the most bytes. -/
theorem Longest.utf8ByteSize_le (isLongest : Longest history text spelling)
    (entered : other ∈ history.map Prod.fst) (starts : other.toList <+: text.toList) :
    other.utf8ByteSize ≤ spelling.utf8ByteSize := by
  obtain ⟨rest, whole⟩ := exists_append_of_starts (isLongest.starts_of_starts entered starts)
  rw [whole, String.utf8ByteSize_append]
  exact Nat.le_add_right _ _

/-- Its bytes end at the boundary of a character of the text. -/
theorem Longest.isValid (isLongest : Longest history text spelling) :
    String.Pos.Raw.IsValid text ⟨spelling.utf8ByteSize⟩ := by
  obtain ⟨rest, whole⟩ := exists_append_of_starts isLongest.starts
  exact String.Pos.Raw.isValid_iff_exists_append.2 ⟨spelling, rest, whole, rfl⟩

/-- No mark is taken exactly if the text starts with no spelling. -/
theorem Records.mark?_eq_none_iff (records : lexicon.Records history) :
    lexicon.mark? text.toList = none ↔
      ∀ spelling ∈ history.map Prod.fst, ¬ spelling.toList <+: text.toList := by
  simp only [mark?, List.find?_eq_none, List.isPrefixOf_iff_prefix, ← records.mem_spellings_iff,
    List.forall_mem_map]

/-- The mark taken has the longest spelling and its latest symbol: the text does not start with the
marks before it, and the marks behind it are not longer. -/
theorem Records.longest_of_mark? (records : lexicon.Records history)
    (found : lexicon.mark? text.toList = some mark) :
    Longest history text mark.1 ∧ latest? history mark.1 = some mark.2 := by
  obtain ⟨starts, before, after, split, passed⟩ := List.find?_eq_some_iff_append.1 found
  have listed : mark ∈ lexicon.marks := by simp [split]
  refine ⟨⟨records.mem_spellings_iff.1 (List.mem_map_of_mem listed),
    List.isPrefixOf_iff_prefix.1 starts, ?_⟩, (records.mem_iff mark.1 mark.2).1 listed⟩
  intro other entered otherStarts
  obtain ⟨entry, member, rfl⟩ := List.mem_map.1 (records.mem_spellings_iff.2 entered)
  have ordered := records.ordered
  rw [Ordered, split] at ordered
  rw [split, List.mem_append, List.mem_cons] at member
  rcases member with earlier | rfl | later
  · have := passed entry earlier
    rw [List.isPrefixOf_iff_prefix.2 otherStarts] at this
    contradiction
  · exact Nat.le_refl _
  · have tail := (List.pairwise_append.1 ordered).2.1
    exact longerFirst_iff.1 (List.rel_of_pairwise_cons tail later)

/-- The mark that is taken is the longest spelling that the text starts with, with its latest symbol
and its size in bytes. -/
theorem Records.leadingMark?_eq_some_iff (records : lexicon.Records history) :
    lexicon.leadingMark? text = some (symbol, size) ↔
      ∃ spelling, Longest history text spelling ∧ latest? history spelling = some symbol ∧
        spelling.utf8ByteSize = size := by
  constructor
  · intro taken
    obtain ⟨mark, found, same⟩ := Option.map_eq_some_iff.1 taken
    obtain ⟨isLongest, latest⟩ := records.longest_of_mark? found
    obtain ⟨rfl, rfl⟩ := Prod.mk.inj same
    exact ⟨mark.1, isLongest, latest, rfl⟩
  · rintro ⟨spelling, isLongest, latest, rfl⟩
    cases found : lexicon.mark? text.toList with
    | none =>
      exact absurd isLongest.starts
        (records.mark?_eq_none_iff.1 found spelling isLongest.entered)
    | some mark =>
      obtain ⟨markLongest, markLatest⟩ := records.longest_of_mark? found
      obtain rfl := isLongest.eq markLongest
      rw [latest] at markLatest
      obtain rfl := Option.some.inj markLatest
      rw [leadingMark?, found, Option.map_some]

/-- Whatever marks are added to those of the language, none is found exactly if the text starts with
none of the spellings. Otherwise the symbol found is the one added last for the longest spelling
that the text starts with, longest in characters as in bytes, and the size found is the number of
its bytes, which end at the boundary of a character. -/
theorem leading_mark_is_longest (additions : List Spelling) (text : String) :
    ((standard.addMarks additions).leadingMark? text = none ↔
      ∀ spelling ∈ (standardMarks ++ additions).map Prod.fst,
        ¬ spelling.toList <+: text.toList) ∧
    (∀ symbol size, (standard.addMarks additions).leadingMark? text = some (symbol, size) ↔
      ∃ spelling, Longest (standardMarks ++ additions) text spelling ∧
        latest? (standardMarks ++ additions) spelling = some symbol ∧
        spelling.utf8ByteSize = size) ∧
    (∀ symbol size, (standard.addMarks additions).leadingMark? text = some (symbol, size) →
      String.Pos.Raw.IsValid text ⟨size⟩ ∧
      ∀ spelling ∈ (standardMarks ++ additions).map Prod.fst,
        spelling.toList <+: text.toList → spelling.utf8ByteSize ≤ size) := by
  have records := records_standard.addMarks additions
  refine ⟨?_, fun symbol size => records.leadingMark?_eq_some_iff, ?_⟩
  · rw [leadingMark?, Option.map_eq_none_iff]
    exact records.mark?_eq_none_iff
  · intro symbol size taken
    obtain ⟨spelling, isLongest, -, rfl⟩ := records.leadingMark?_eq_some_iff.1 taken
    exact ⟨isLongest.isValid, fun other => isLongest.utf8ByteSize_le⟩

/-- A spelling added twice, which starts with a mark of the language. -/
theorem leading_mark_is_longest_doubled :
    (standard.addMarks [("∀∀", .op .or), ("∀", .op .not), ("∀∀", .op .and)]).leadingMark? "∀∀x" =
      some (.op .and, 6) ∧ String.Pos.Raw.IsValid "∀∀x" ⟨6⟩ := by
  have wins := leading_mark_is_longest
    [("∀∀", .op .or), ("∀", .op .not), ("∀∀", .op .and)] "∀∀x"
  have taken := (wins.2.1 (.op .and) 6).2
    ⟨"∀∀", ⟨by decide, by decide, by decide⟩, rfl, by decide⟩
  exact ⟨taken, (wins.2.2 _ _ taken).1⟩

end Lexicon

end Refute
