import Mathlib.Data.List.Find
import Refute.Proofs.Spelling

/-!
# Blanks around a text

Blanks separate tokens and are part of none: no name, number or mark has one, and a quoted text goes
on past them to its second quote. So blanks before and after a text change neither its tokens nor
the session that reading it leaves behind. Blanks before it only move the offsets in error messages;
blanks after it do not even do that.

A token ends at a quote as it does at a blank, if it is not a quoted text itself, and then it has
two quotes. So a text that is cut off between quotes gives the tokens that it gave before, up to a
quoted text that does not end.
-/

namespace Refute

namespace Text

/-! ### Blanks -/

/-- The code points of all blanks. -/
def blankCodes : List Nat :=
  blankRanges.flatMap fun range => List.range' range.1 (range.2 + 1 - range.1)

/-- What holds of every code point of a blank holds of every blank. -/
theorem forall_blank {p : Char → Bool} (codes : blankCodes.all fun code => p (Char.ofNat code))
    {c : Char} (blank : isBlank c) : p c := by
  obtain ⟨range, listed, holds⟩ := List.any_eq_true.1 blank
  obtain ⟨low, high⟩ := (Range.holds_iff range c.toNat).1 holds
  have coded : c.toNat ∈ blankCodes :=
    List.mem_flatMap.2 ⟨range, listed, List.mem_range'_1.2 ⟨low, by omega⟩⟩
  have found := List.all_eq_true.1 codes c.toNat coded
  rwa [Char.ofNat_toNat] at found

/-- No blank continues a name. -/
theorem not_continuesName {c : Char} (blank : isBlank c) : continuesName c = false := by
  have apart := forall_blank (p := fun c => !continuesName c) (by decide +kernel) blank
  simpa using apart

/-- No blank is part of a number. -/
theorem not_isDigit {c : Char} (blank : isBlank c) : c.isDigit = false ∧ c ≠ '.' := by
  have apart := forall_blank (p := fun c => !c.isDigit && c != '.') (by decide +kernel) blank
  simpa using apart

/-- No blank is a quote. -/
theorem ne_quote {c : Char} (blank : isBlank c) : (c != '"') = true :=
  forall_blank (p := fun c => c != '"') (by decide +kernel) blank

end Text

/-- Taking stops before what is appended if all of that fails, or if something fails before it. -/
theorem takeWhile_append_of_fails {α : Type} {p : α → Bool} {part rest : List α}
    (fails : (∀ a ∈ rest, p a = false) ∨ ∃ a ∈ part, p a = false) :
    (part ++ rest).takeWhile p = part.takeWhile p ∧
      (part ++ rest).dropWhile p = part.dropWhile p ++ rest := by
  induction part with
  | nil =>
    rcases fails with fails | ⟨a, none, -⟩
    · exact takeWhile_append_of_stop (List.forall_mem_nil _)
        fun a first => fails a (List.mem_of_mem_head? first)
    · cases none
  | cons a part ih =>
    cases passes : p a with
    | false => simp [passes]
    | true =>
      have later : (∀ a ∈ rest, p a = false) ∨ ∃ a ∈ part, p a = false := by
        rcases fails with fails | ⟨b, member, failing⟩
        · exact .inl fails
        · rcases List.mem_cons.1 member with rfl | member
          · rw [passes] at failing
            cases failing
          · exact .inr ⟨b, member, failing⟩
      simp [passes, ih later]

/-! ### Texts that do not run on -/

/-- No token of the first text runs on into the second one: that consists of blanks, or there is a
quote before it. -/
def Text.Apart (text more : List Char) : Prop :=
  (∀ c ∈ more, isBlank c) ∨ '"' ∈ text

namespace Text.Apart

variable {text more rest : List Char} {c : Char} {p : Char → Bool}

/-- A character in front lets no token run on. -/
theorem cons (apart : Apart rest more) (c : Char) : Apart (c :: rest) more :=
  apart.imp_right (List.mem_cons_of_mem c)

/-- Leaving out a first character other than a quote lets no token run on. -/
theorem tail (apart : Apart (c :: rest) more) (other : '"' ≠ c) : Apart rest more :=
  apart.imp_right fun member => (List.mem_cons.1 member).resolve_left other

/-- Leaving out characters up to a quote lets no token run on. -/
theorem dropWhile (apart : Apart text more) (stops : p '"' = false) :
    Apart (text.dropWhile p) more := by
  refine apart.imp_right fun member => ?_
  rw [← List.takeWhile_append_dropWhile (p := p) (l := text)] at member
  refine (List.mem_append.1 member).resolve_left fun taken => ?_
  have passes : p '"' = true := List.mem_takeWhile_imp taken
  rw [stops] at passes
  cases passes

/-- A stretch of characters that are neither blanks nor quotes ends within the first text. -/
theorem takeWhile_eq (apart : Apart text more) (blanks : ∀ {c}, isBlank c → p c = false)
    (stops : p '"' = false) : (text ++ more).takeWhile p = text.takeWhile p ∧
      (text ++ more).dropWhile p = text.dropWhile p ++ more :=
  takeWhile_append_of_fails
    (apart.imp (fun areBlank c member => blanks (areBlank c member)) fun member => ⟨_, member, stops⟩)

end Text.Apart

namespace Lexeme

variable {offset : Nat} {c : Char} {rest text more : List Char}

/-- The reading in a text that goes on. -/
def Reading.extend (reading : Reading) (more : List Char) : Reading :=
  { reading with rest := reading.rest ++ more }

/-! ### Spellings -/

/-- The digits of a number stand at the start of the text. -/
theorem spell_isPrefix {whole : List Char} {fraction : Option (List Char)}
    (split : numeral text = (whole, fraction)) : spell whole fraction <+: text := by
  have taken := List.takeWhile_append_dropWhile (p := Char.isDigit) (l := text)
  unfold numeral at split
  dsimp only at split
  split at split
  · rename_i after point
    rw [point] at taken
    split at split
    · obtain ⟨rfl, rfl⟩ := Prod.mk.inj split
      exact ⟨_, taken⟩
    · obtain ⟨rfl, rfl⟩ := Prod.mk.inj split
      refine ⟨after.dropWhile Char.isDigit, ?_⟩
      rw [spell, List.append_assoc, List.cons_append, List.takeWhile_append_dropWhile, taken]
  · obtain ⟨rfl, rfl⟩ := Prod.mk.inj split
    exact ⟨_, taken⟩

/-- The digits of a number have no quote among them. -/
theorem not_mem_spell {whole : List Char} {fraction : Option (List Char)}
    (split : numeral text = (whole, fraction)) : '"' ∉ spell whole fraction := by
  obtain ⟨found, same, decimals⟩ := numeral_ok text
  obtain ⟨rfl, equal⟩ := Prod.mk.inj (split.symm.trans same)
  rw [← equal] at decimals
  have noDigit : ¬ ('"').isDigit = true := by decide
  have before : '"' ∉ text.takeWhile Char.isDigit :=
    fun member => noDigit (List.mem_takeWhile_imp member)
  cases fraction with
  | none => exact before
  | some digits =>
    have after : '"' ∉ digits := fun member => noDigit ((decimals digits rfl).2 _ member)
    simp [spell, before, after]

/-- A quoted text without a second quote fails at its offset. -/
theorem readQuoted_open (none : '"' ∉ rest) (offset : Nat) :
    readQuoted offset rest = .error (.unterminatedString offset) := by
  have taken : rest.takeWhile (· != '"') = rest :=
    List.takeWhile_eq_self_iff.2 fun c member => bne_iff_ne.2 fun same => none (same ▸ member)
  unfold readQuoted
  dsimp only
  rw [taken, List.drop_length]

/-- A quote without a second one fails at its offset. -/
theorem read_open (none : '"' ∉ rest) (offset : Nat) :
    read .standard offset '"' rest = .error (.unterminatedString offset) := by
  unfold read
  rw [if_neg (by decide), if_neg (by decide), if_pos (by decide), readQuoted_open none]

/-- A quote opens a quoted text if there is another one. -/
theorem quote_cases (rest : List Char) :
    '"' ∉ rest ∨ ∃ body after, rest = body ++ '"' :: after ∧ ∀ c ∈ body, (c != '"') = true := by
  by_cases member : '"' ∈ rest
  · obtain ⟨body, after, split, before⟩ := List.eq_append_cons_of_mem member
    exact .inr ⟨body, after, split, fun c inside => bne_iff_ne.2 fun same => before (same ▸ inside)⟩
  · exact .inl member

/-- No mark of the standard lexicon is empty or has a blank or a quote in it. -/
theorem spelling_of_marks : Lexicon.standard.marks.all fun mark =>
    mark.1.toList.all (fun c => !Text.isBlank c && c != '"') && !mark.1.toList.isEmpty := by
  decide

/-- The spelling stands at the start of the text. It has no quote or two. -/
structure Reading.Spells (reading : Reading) (text : List Char) : Prop where
  split : text = reading.spelling ++ reading.rest
  nonempty : reading.spelling ≠ []
  even : reading.spelling.count '"' % 2 = 0

/-- A token without quotes. -/
theorem Reading.Spells.unquoted {reading : Reading}
    (split : text = reading.spelling ++ reading.rest) (nonempty : reading.spelling ≠ [])
    (unquoted : '"' ∉ reading.spelling) : reading.Spells text :=
  ⟨split, nonempty, by rw [List.count_eq_zero.2 unquoted]⟩

/-- A word is spelled by the characters of its name. -/
theorem spells_word (starts : Text.startsName c) {lexeme : Lexeme} :
    Reading.Spells ⟨lexeme, c :: rest.takeWhile Text.continuesName,
      rest.dropWhile Text.continuesName⟩ (c :: rest) := by
  refine .unquoted ?_ (List.cons_ne_nil _ _) fun member => ?_
  · rw [List.cons_append, List.takeWhile_append_dropWhile]
  · have continues : Text.continuesName '"' = true := by
      rcases List.mem_cons.1 member with rfl | member
      · exact Text.continuesName_of_startsName starts
      · exact List.mem_takeWhile_imp member
    have not : Text.continuesName '"' = false := by decide +kernel
    rw [not] at continues
    cases continues

/-- A number is spelled by its digits. -/
theorem spells_number {reading : Reading} (digit : c.isDigit)
    (done : readNumber (c :: rest) = .ok reading) : reading.Spells (c :: rest) := by
  obtain ⟨fraction, split, -⟩ := numeral_ok (c :: rest)
  have starts := spell_isPrefix split
  have unquoted := not_mem_spell split
  have nonempty : spell ((c :: rest).takeWhile Char.isDigit) fraction ≠ [] := by
    rw [List.takeWhile_cons_of_pos digit]
    cases fraction <;> exact List.cons_ne_nil _ _
  rw [readNumber_eq split] at done
  generalize spell ((c :: rest).takeWhile Char.isDigit) fraction = spelling at *
  cases known : numeralValue? spelling fraction with
  | none =>
    rw [known] at done
    cases done
  | some value =>
    rw [known] at done
    obtain rfl := Except.ok.inj done
    exact .unquoted (List.prefix_iff_eq_append.1 starts).symm nonempty unquoted

/-- A quoted text is spelled by what stands between its quotes and the quotes. -/
theorem spells_quoted {reading : Reading} (done : readQuoted offset rest = .ok reading) :
    reading.Spells ('"' :: rest) := by
  rcases quote_cases rest with none | ⟨body, after, rfl, inside⟩
  · rw [readQuoted_open none] at done
    cases done
  · rw [readQuoted_closed inside] at done
    obtain rfl := Except.ok.inj done
    have unquoted : body.count '"' = 0 :=
      List.count_eq_zero.2 fun member => bne_iff_ne.1 (inside _ member) rfl
    exact ⟨by simp, List.cons_ne_nil _ _, by simp [unquoted]⟩

/-- A mark is spelled as in the lexicon. -/
theorem spells_mark {mark : Spelling} {lexeme : Lexeme}
    (found : Lexicon.standard.mark? text = some mark) :
    Reading.Spells ⟨lexeme, mark.1.toList, text.drop mark.1.length⟩ text := by
  have starts := List.find?_some found
  have spelled := List.all_eq_true.1 spelling_of_marks _ (List.mem_of_find?_eq_some found)
  obtain ⟨clean, nonempty⟩ := Bool.and_eq_true_iff.1 spelled
  refine .unquoted (List.prefix_iff_eq_append.1 (List.isPrefixOf_iff_prefix.1 starts)).symm ?_ ?_
  · simpa using nonempty
  · intro member
    have other := List.all_eq_true.1 clean _ member
    cases other

/-- Whatever is read is spelled at the start of the text, with no quote or two. -/
theorem spells_of_read {reading : Reading} (done : read .standard offset c rest = .ok reading) :
    reading.Spells (c :: rest) := by
  unfold read at done
  split at done
  · rename_i starts
    exact Except.ok.inj done ▸ spells_word starts
  split at done
  · rename_i digit
    exact spells_number digit done
  split at done
  · rename_i quote
    obtain rfl := beq_iff_eq.1 quote
    exact spells_quoted done
  split at done
  · rename_i found
    exact Except.ok.inj done ▸ spells_mark found
  · cases done

/-- Offsets matter for errors only. -/
theorem read_offset {reading : Reading} (done : read .standard offset c rest = .ok reading)
    (other : Nat) : read .standard other c rest = .ok reading := by
  unfold read at done ⊢
  split at done
  · rename_i starts
    rw [if_pos starts, done]
  rename_i starts
  rw [if_neg starts]
  split at done
  · rename_i digit
    rw [if_pos digit, done]
  rename_i digit
  rw [if_neg digit]
  split at done
  · rename_i quote
    rw [if_pos quote]
    rcases quote_cases rest with none | ⟨body, after, rfl, inside⟩
    · rw [readQuoted_open none] at done
      cases done
    · rwa [readQuoted_closed inside] at done ⊢
  rename_i quote
  rw [if_neg quote]
  split at done
  · exact done
  · cases done

/-! ### Text after a token -/

/-- Text that is kept apart adds no digits to a number. -/
theorem numeral_append (apart : Text.Apart text more) : numeral (text ++ more) = numeral text := by
  obtain ⟨taken, left⟩ := apart.takeWhile_eq (fun blank => (Text.not_isDigit blank).1) (by decide)
  have later := apart.dropWhile (p := Char.isDigit) (by decide)
  unfold numeral
  rw [taken, left]
  generalize text.dropWhile Char.isDigit = remaining at later
  rcases remaining with _ | ⟨c, after⟩
  · have areBlank := later.resolve_right List.not_mem_nil
    rcases more with _ | ⟨blank, others⟩
    · rfl
    · -- The match on a point looks at the first blank.
      split
      · rename_i same
        have point := (Text.not_isDigit (areBlank blank List.mem_cons_self)).2
        exact absurd (List.cons.inj same).1 point
      · rfl
  · by_cases point : c = '.'
    · subst point
      obtain ⟨digits, -⟩ := (later.tail (by decide)).takeWhile_eq (p := Char.isDigit)
        (fun blank => (Text.not_isDigit blank).1) (by decide)
      simp only [List.cons_append, digits]
    · split
      · rename_i same
        exact absurd (List.cons.inj same).1 point
      · split
        · rename_i same
          exact absurd (List.cons.inj same).1 point
        · rfl

/-- A number is read alike in front of text that is kept apart. -/
theorem readNumber_append (apart : Text.Apart text more) :
    readNumber (text ++ more) = (readNumber text).map (Reading.extend · more) := by
  obtain ⟨fraction, split, -⟩ := numeral_ok text
  have again := (numeral_append apart).trans split
  have within := (spell_isPrefix split).length_le
  rw [readNumber_eq split, readNumber_eq again, List.drop_append_of_le_length within]
  cases numeralValue? (spell (text.takeWhile Char.isDigit) fraction) fraction <;> rfl

/-- A quoted text is read alike in front of text that is kept apart. -/
theorem readQuoted_append (apart : Text.Apart rest more) (offset : Nat) :
    readQuoted offset (rest ++ more) = (readQuoted offset rest).map (Reading.extend · more) := by
  rcases quote_cases rest with none | ⟨body, after, rfl, inside⟩
  · have still : '"' ∉ rest ++ more := by
      intro member
      have blank := apart.resolve_right none _ ((List.mem_append.1 member).resolve_left none)
      exact bne_iff_ne.1 (Text.ne_quote blank) rfl
    rw [readQuoted_open none, readQuoted_open still]
    rfl
  · rw [List.append_assoc, List.cons_append, readQuoted_closed inside, readQuoted_closed inside]
    rfl

/-- A spelling without blanks and quotes does not run on either. -/
theorem isPrefixOf_append {spelling : List Char}
    (clean : ∀ c ∈ spelling, Text.isBlank c = false ∧ c ≠ '"') (apart : Text.Apart text more) :
    spelling.isPrefixOf (text ++ more) = spelling.isPrefixOf text := by
  induction spelling generalizing text with
  | nil => rfl
  | cons c spelling ih =>
    obtain ⟨⟨visible, unquoted⟩, clean⟩ := List.forall_mem_cons.1 clean
    cases text with
    | nil =>
      have areBlank := apart.resolve_right List.not_mem_nil
      cases more with
      | nil => rfl
      | cons blank others =>
        have different : (c == blank) = false := by
          refine beq_false_of_ne fun same => ?_
          rw [same, areBlank blank List.mem_cons_self] at visible
          cases visible
        simp [List.isPrefixOf, different]
    | cons d text =>
      simp only [List.cons_append, List.isPrefixOf]
      cases same : c == d with
      | false => rfl
      | true => rw [ih clean (apart.tail (beq_iff_eq.1 same ▸ unquoted.symm))]

/-- The same mark is found in front of text that is kept apart. -/
theorem mark?_append (apart : Text.Apart text more) :
    Lexicon.standard.mark? (text ++ more) = Lexicon.standard.mark? text := by
  unfold Lexicon.mark?
  refine List.find?_congr fun mark listed => ?_
  have spelled := List.all_eq_true.1 spelling_of_marks mark listed
  have clean := List.all_eq_true.1 (Bool.and_eq_true_iff.1 spelled).1
  refine isPrefixOf_append (fun c member => ?_) apart
  simpa using clean c member

/-- What a token does not run on into is left over by it. -/
theorem read_append (apart : Text.Apart rest more) (offset : Nat) (c : Char) :
    read .standard offset c (rest ++ more) =
      (read .standard offset c rest).map (Reading.extend · more) := by
  unfold read
  split
  · obtain ⟨taken, left⟩ := apart.takeWhile_eq Text.not_continuesName (by decide +kernel)
    rw [taken, left]
    rfl
  split
  · exact readNumber_append (apart.cons c)
  split
  · exact readQuoted_append apart offset
  · rw [← List.cons_append, mark?_append (apart.cons c)]
    cases found : Lexicon.standard.mark? (c :: rest) with
    | none => rfl
    | some mark =>
      have starts := List.find?_some found
      have within := (List.isPrefixOf_iff_prefix.1 starts).length_le
      have within : mark.1.length ≤ (c :: rest).length := within
      simp only [List.drop_append_of_le_length within]
      rfl

end Lexeme

/-! ### Blanks around a text -/

namespace Lexer

variable {lexer next last : Lexer} {offset : Nat} {c : Char} {rest text more : List Char}

/-- A token that is taken is a part of the text. -/
theorem spells_of_step {spelling remaining : List Char}
    (stepped : lexer.step .standard offset c rest = (.ok (spelling, remaining), next)) :
    c :: rest = spelling ++ remaining ∧ spelling ≠ [] ∧ spelling.count '"' % 2 = 0 := by
  unfold step at stepped
  split at stepped
  · cases stepped
  rename_i reading read
  split at stepped
  · cases stepped
  split at stepped
  · cases stepped
  obtain ⟨same, -⟩ := Prod.mk.inj stepped
  obtain ⟨rfl, rfl⟩ := Prod.mk.inj (Except.ok.inj same)
  obtain ⟨split, nonempty, even⟩ := Lexeme.spells_of_read read
  exact ⟨split, nonempty, even⟩

/-- Offsets matter for errors only. -/
theorem step_offset {remaining : List Char × List Char}
    (stepped : lexer.step .standard offset c rest = (.ok remaining, next)) (other : Nat) :
    lexer.step .standard other c rest = (.ok remaining, next) := by
  unfold step at stepped ⊢
  split at stepped
  · cases stepped
  · rename_i read
    rw [Lexeme.read_offset read other]
    exact stepped

/-- Text that is kept apart opens no parenthesis. -/
theorem startsCall_append (apart : Text.Apart rest more) :
    startsCall (rest ++ more) = startsCall rest := by
  induction rest with
  | nil =>
    unfold startsCall Text.trimStart
    rw [List.nil_append, List.dropWhile_eq_nil_iff.2 (apart.resolve_right List.not_mem_nil)]
    rfl
  | cons c rest ih =>
    rw [List.cons_append]
    cases blank : Text.isBlank c with
    | true =>
      have other := bne_iff_ne.1 (Text.ne_quote blank)
      rw [startsCall_of_isBlank blank, startsCall_of_isBlank blank, ih (apart.tail other.symm)]
    | false => rw [startsCall_of_not_isBlank blank, startsCall_of_not_isBlank blank]

/-- A step leaves alone what neither its token nor the text after it runs on into. -/
theorem step_append (apart : Text.Apart rest more)
    (later : ∀ reading, Lexeme.read .standard offset c rest = .ok reading →
      Text.Apart reading.rest more) (lexer : Lexer) :
    lexer.step .standard offset c (rest ++ more) =
      ((lexer.step .standard offset c rest).1.map (Prod.map id (· ++ more)),
        (lexer.step .standard offset c rest).2) := by
  unfold step
  rw [Lexeme.read_append apart]
  cases read : Lexeme.read .standard offset c rest with
  | error cause => rfl
  | ok reading =>
    have same : lexer.symbolOf .standard (reading.extend more).rest reading.lexeme =
        lexer.symbolOf .standard reading.rest reading.lexeme :=
      symbolOf_congr (startsCall_append (later reading read))
    simp only [Except.map, Lexeme.Reading.extend] at same ⊢
    rw [same]
    rcases lexer.symbolOf .standard reading.rest reading.lexeme with cause | ⟨symbol, resolved⟩
    · rfl
    · dsimp only
      cases resolved.accept symbol <;> rfl

/-- Blanks alone are no tokens. -/
theorem scan_blanks (areBlank : ∀ c ∈ text, Text.isBlank c) {fuel : Nat}
    (enough : text.length ≤ fuel) (lexer : Lexer) (offset : Nat) :
    scan .standard fuel lexer offset text = (.ok (), lexer) := by
  induction text generalizing fuel offset with
  | nil => cases fuel <;> rfl
  | cons c text ih =>
    obtain ⟨blank, areBlank⟩ := List.forall_mem_cons.1 areBlank
    cases fuel with
    | zero => cases enough
    | succ fuel =>
      unfold scan
      rw [if_pos blank]
      exact ih areBlank (Nat.le_of_succ_le_succ enough) _

/-- A step makes the text shorter. -/
theorem length_le_of_step {spelling remaining : List Char}
    (stepped : lexer.step .standard offset c rest = (.ok (spelling, remaining), next)) :
    remaining.length ≤ rest.length := by
  obtain ⟨whole, nonempty, -⟩ := spells_of_step stepped
  have length := congrArg List.length whole
  have positive := List.length_pos_iff.2 nonempty
  rw [List.length_append, List.length_cons] at length
  omega

/-- Blanks after a text change nothing. -/
theorem scan_append (areBlank : ∀ c ∈ more, Text.isBlank c) {fuel fuel' : Nat}
    (enough : text.length ≤ fuel) (enough' : (text ++ more).length ≤ fuel') (lexer : Lexer)
    (offset : Nat) :
    scan .standard fuel' lexer offset (text ++ more) = scan .standard fuel lexer offset text := by
  induction fuel generalizing fuel' lexer offset text with
  | zero =>
    obtain rfl := List.length_eq_zero_iff.1 (Nat.le_zero.1 enough)
    exact scan_blanks areBlank enough' lexer offset
  | succ fuel ih =>
    cases text with
    | nil => exact scan_blanks areBlank enough' lexer offset
    | cons c rest =>
      cases fuel' with
      | zero => cases enough'
      | succ fuel' =>
        have enough := Nat.le_of_succ_le_succ enough
        have enough' : (rest ++ more).length ≤ fuel' := Nat.le_of_succ_le_succ enough'
        rw [List.cons_append]
        unfold scan
        split
        · exact ih enough enough' _ _
        · rw [step_append (.inl areBlank) (fun _ _ => .inl areBlank)]
          rcases stepped : lexer.step .standard offset c rest with ⟨cause | ⟨spelling, remaining⟩, next⟩
          · rfl
          · have shorter := length_le_of_step stepped
            rw [List.length_append] at enough'
            refine ih (shorter.trans enough) ?_ next _
            rw [List.length_append]
            omega

/-- A text that can be read is not readable up to a place between quotes: the first of the two opens
a quoted text that does not end. -/
theorem scan_open {fuel fuel' : Nat} (odd : text.count '"' % 2 = 1) (enough : text.length ≤ fuel)
    (scanned : scan .standard fuel' lexer offset (text ++ more) = (.ok (), last)) :
    ∃ start, (scan .standard fuel lexer offset text).1 = .error (.unterminatedString start) := by
  induction fuel generalizing fuel' lexer offset text with
  | zero =>
    obtain rfl := List.length_eq_zero_iff.1 (Nat.le_zero.1 enough)
    cases odd
  | succ fuel ih =>
    rcases text with _ | ⟨c, rest⟩
    · cases odd
    rcases fuel' with _ | fuel'
    · cases scanned
    have enough := Nat.le_of_succ_le_succ enough
    rw [List.cons_append] at scanned
    unfold scan at scanned ⊢
    split at scanned
    · rename_i blank
      have other : ¬ (c == '"') = true := by simpa using Text.ne_quote blank
      rw [List.count_cons, if_neg other] at odd
      rw [if_pos blank]
      exact ih odd enough scanned
    · rename_i visible
      rw [if_neg visible]
      by_cases closed : '"' ∈ rest
      · have later : ∀ reading, Lexeme.read .standard offset c rest = .ok reading →
            Text.Apart reading.rest more := by
          intro reading read
          obtain ⟨split, -, even⟩ := Lexeme.spells_of_read read
          rw [split, List.count_append] at odd
          exact .inr (List.count_pos_iff.1 (by omega))
        rw [step_append (.inr closed) later] at scanned
        rcases stepped : lexer.step .standard offset c rest with ⟨cause | ⟨spelling, remaining⟩, next⟩
        · rw [stepped] at scanned
          cases scanned
        · rw [stepped] at scanned
          obtain ⟨split, -, even⟩ := spells_of_step stepped
          rw [split, List.count_append] at odd
          exact ih (by omega) ((length_le_of_step stepped).trans enough) scanned
      · rw [List.count_cons, List.count_eq_zero.2 closed] at odd
        obtain rfl : c = '"' := by
          by_contra other
          simp [other] at odd
        refine ⟨offset, ?_⟩
        rw [step, Lexeme.read_open closed]

/-- Offsets matter for errors only. -/
theorem scan_offset {fuel : Nat} (scanned : scan .standard fuel lexer offset text = (.ok (), last))
    (other : Nat) : scan .standard fuel lexer other text = (.ok (), last) := by
  induction fuel generalizing lexer offset other text with
  | zero =>
    cases text with
    | nil => exact scanned
    | cons c rest => cases scanned
  | succ fuel ih =>
    cases text with
    | nil => exact scanned
    | cons c rest =>
      unfold scan at scanned ⊢
      split at scanned
      · rename_i blank
        rw [if_pos blank]
        exact ih scanned _
      · rename_i blank
        rw [if_neg blank]
        split at scanned
        · cases scanned
        · rename_i stepped
          rw [step_offset stepped other]
          exact ih scanned _

/-- Blanks before a text only move it. -/
theorem scan_skip {front : List Char} (areBlank : ∀ c ∈ front, Text.isBlank c) (text : List Char)
    (fuel : Nat) (lexer : Lexer) (offset : Nat) :
    ∃ moved, scan .standard (front.length + fuel) lexer offset (front ++ text) =
      scan .standard fuel lexer moved text := by
  induction front generalizing offset with
  | nil => exact ⟨offset, by rw [List.length_nil, Nat.zero_add, List.nil_append]⟩
  | cons c front ih =>
    obtain ⟨blank, areBlank⟩ := List.forall_mem_cons.1 areBlank
    obtain ⟨moved, same⟩ := ih areBlank (offset + c.utf8Size)
    refine ⟨moved, ?_⟩
    rw [← same, List.length_cons, Nat.succ_add, List.cons_append, scan, if_pos blank]

end Lexer

namespace Session

variable {session next : Session} {text more : List Char} {tokens : List Symbol}

/-- Tokens are read with fuel for all characters, and the names of the text are released. -/
theorem tokenize_ofList (session : Session) (text : List Char) :
    session.tokenize (String.ofList text) =
      ((Lexer.scan .standard (text.length + 3) { session } 0 text).1.map fun _ =>
          (Lexer.scan .standard (text.length + 3) { session } 0 text).2.tokens.reverse,
        (Lexer.scan .standard (text.length + 3) { session } 0 text).2.close) := by
  unfold tokenize tokenizeWith
  rw [String.toList_ofList]

/-- What is read without an error was scanned without one. -/
theorem scan_of_tokenize
    (tokenized : session.tokenize (String.ofList text) = (.ok tokens, next)) :
    ∃ last, Lexer.scan .standard (text.length + 3) { session } 0 text = (.ok (), last) := by
  rw [tokenize_ofList] at tokenized
  rcases scanned : Lexer.scan .standard (text.length + 3) { session } 0 text with
    ⟨cause | done, last⟩
  · rw [scanned] at tokenized
    cases tokenized
  · exact ⟨last, rfl⟩

/-- Blanks after a text change neither its tokens nor the session, nor an error. -/
theorem tokenize_append (areBlank : ∀ c ∈ more, Text.isBlank c) (session : Session)
    (text : List Char) :
    session.tokenize (String.ofList (text ++ more)) = session.tokenize (String.ofList text) := by
  rw [tokenize_ofList, tokenize_ofList,
    Lexer.scan_append areBlank (Nat.le_add_right _ 3) (Nat.le_add_right _ 3)]

/-- Blanks before a text that can be read change neither its tokens nor the session. -/
theorem tokenize_skip {front : List Char} (areBlank : ∀ c ∈ front, Text.isBlank c)
    (tokenized : session.tokenize (String.ofList (front ++ text)) = (.ok tokens, next)) :
    session.tokenize (String.ofList text) = (.ok tokens, next) := by
  obtain ⟨last, scanned⟩ := scan_of_tokenize tokenized
  obtain ⟨moved, skipped⟩ := Lexer.scan_skip areBlank text (text.length + 3) { session } 0
  have whole : (front ++ text).length + 3 = front.length + (text.length + 3) := by
    rw [List.length_append, Nat.add_assoc]
  rw [tokenize_ofList, scanned] at tokenized
  rw [whole, skipped] at scanned
  rw [tokenize_ofList, Lexer.scan_offset scanned 0]
  exact tokenized

/-- A text that can be read is not readable up to a place between quotes. -/
theorem tokenize_open (odd : text.count '"' % 2 = 1)
    (tokenized : session.tokenize (String.ofList (text ++ more)) = (.ok tokens, next)) :
    ∃ start, (session.tokenize (String.ofList text)).1 = .error (.unterminatedString start) := by
  obtain ⟨last, scanned⟩ := scan_of_tokenize tokenized
  obtain ⟨start, unfinished⟩ := Lexer.scan_open odd (Nat.le_add_right _ 3) scanned
  refine ⟨start, ?_⟩
  rw [tokenize_ofList, unfinished]
  rfl

end Session

end Refute
