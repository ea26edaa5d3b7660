import Refute.Problem
import Refute.Proofs.Lending
import Refute.Proofs.Margin

/-!
# Statements on lines

A directive is read in two passes. The first one ends the line at a comment, cuts it at a blank and
takes away the blanks at both ends. What is left goes to the reader of statements, to which the
blanks around a statement mean nothing. So a statement on a line is the statement that it is
elsewhere, if nothing of it is taken for a comment.

The first pass does not know about quotes. It takes `#` and `%` for the start of a comment inside of
a quoted text too, and what is left then ends before the second quote and cannot be read.
-/

namespace Refute

namespace Text

/-! ### Lines -/

/-- The text with one more line. -/
def appendLine (text line : String) : String :=
  if text.toList.getLast?.all (· == '\n') then text ++ line else text ++ "\n" ++ line

/-- A character other than a line break belongs to the first line. -/
theorem lines_cons {c : Char} (goes : c ≠ '\n') (rest : List Char) :
    lines (c :: rest) = (c :: (lines rest).head?.getD []) :: (lines rest).tail := by
  rw [lines.eq_3 c rest goes]
  cases lines rest <;> rfl

/-- A text without line breaks is one line. -/
theorem lines_singleton {line : List Char} (nonempty : line ≠ []) (single : '\n' ∉ line) :
    lines line = [line] := by
  induction line with
  | nil => exact absurd rfl nonempty
  | cons c rest ih =>
    obtain ⟨goes, single⟩ := not_or.1 (mt List.mem_cons.2 single)
    rw [lines_cons (Ne.symm goes)]
    cases rest with
    | nil => rfl
    | cons d rest => rw [ih (List.cons_ne_nil d rest) single]; rfl

/-- A text that is not empty has a line. -/
theorem lines_ne_nil {text : List Char} (nonempty : text ≠ []) : lines text ≠ [] := by
  cases text with
  | nil => exact absurd rfl nonempty
  | cons c rest =>
    by_cases ends : c = '\n'
    · subst ends
      exact List.cons_ne_nil _ _
    · rw [lines_cons ends]
      exact List.cons_ne_nil _ _

/-- A text that is empty or ends with a line feed has its lines apart from those after it. -/
theorem lines_append {text : List Char} (ended : text.getLast?.all (· == '\n')) (rest : List Char) :
    lines (text ++ rest) = lines text ++ lines rest := by
  induction text with
  | nil => rfl
  | cons c text ih =>
    by_cases ends : c = '\n'
    · subst ends
      have ended : text.getLast?.all (· == '\n') := by
        cases text with
        | nil => rfl
        | cons d text => rwa [List.getLast?_cons_cons] at ended
      rw [List.cons_append, lines, lines, ih ended, List.cons_append]
    · cases text with
      | nil => exact absurd (beq_iff_eq.1 ended) ends
      | cons d text =>
        rw [List.getLast?_cons_cons] at ended
        have nonempty := lines_ne_nil (List.cons_ne_nil d text)
        rw [List.cons_append, lines_cons ends, lines_cons ends, ih ended,
          List.head?_append_of_ne_nil _ nonempty, List.tail_append_of_ne_nil nonempty,
          List.cons_append]

/-- The line feed after the last line starts no line of its own. -/
theorem lines_append_lineFeed {text : List Char} (goes : text.getLast?.all (· == '\n') = false) :
    lines (text ++ ['\n']) = lines text := by
  induction text with
  | nil => cases goes
  | cons c text ih =>
    cases text with
    | nil =>
      have goes : c ≠ '\n' := by simpa using goes
      rw [List.singleton_append, lines_cons goes, lines_cons goes]
      rfl
    | cons d text =>
      rw [List.getLast?_cons_cons] at goes
      by_cases ends : c = '\n'
      · subst ends
        rw [List.cons_append, lines, lines, ih goes]
      · rw [List.cons_append, lines_cons ends, lines_cons ends, ih goes]

/-- A line that is appended becomes the last one and leaves the others. -/
theorem lines_appendLine (text : String) {line : String} (nonempty : line.toList ≠ [])
    (single : '\n' ∉ line.toList) :
    lines (appendLine text line).toList = lines text.toList ++ [line.toList] := by
  unfold appendLine
  split
  · rename_i ended
    rw [String.toList_append, lines_append ended, lines_singleton nonempty single]
  · rename_i goes
    have ended : (text.toList ++ ['\n']).getLast?.all (· == '\n') := by
      rw [List.getLast?_append]
      rfl
    have feed : "\n".toList = ['\n'] := rfl
    rw [String.toList_append, String.toList_append, feed, lines_append ended,
      lines_append_lineFeed (Bool.eq_false_iff.2 goes), lines_singleton nonempty single]

/-! ### Blanks around words -/

/-- The text starts and ends with something visible. -/
structure IsTight (text : List Char) : Prop where
  first : ∃ c ∈ text.head?, isBlank c = false
  last : ∃ c ∈ text.getLast?, isBlank c = false

/-- A text that starts with something visible is not empty. -/
theorem IsTight.ne_nil {text : List Char} (tight : IsTight text) : text ≠ [] := by
  rintro rfl
  obtain ⟨c, none, -⟩ := tight.first
  cases none

/-- More text before the last visible character. -/
theorem IsTight.append {text more : List Char} (tight : IsTight text)
    (first : ∃ c ∈ more.head?, isBlank c = false) : IsTight (more ++ text) := by
  obtain ⟨c, starts, visible⟩ := first
  obtain ⟨d, ends, visible'⟩ := tight.last
  refine ⟨⟨c, ?_, visible⟩, ⟨d, ?_, visible'⟩⟩
  · rw [List.head?_append, starts]
    rfl
  · rw [List.getLast?_append, ends]
    rfl

/-- Trimming takes away all blanks before something visible. -/
theorem trimStart_append {front rest : List Char} (areBlank : ∀ c ∈ front, isBlank c)
    (first : ∃ c ∈ rest.head?, isBlank c = false) : trimStart (front ++ rest) = rest := by
  obtain ⟨c, starts, visible⟩ := first
  refine (takeWhile_append_of_stop areBlank fun d again => ?_).2
  rw [starts] at again
  exact Option.some.inj again ▸ visible

/-- The text is a core that starts and ends with something visible, with blanks around it. -/
structure Frames (text front core back : List Char) : Prop where
  split : text = front ++ core ++ back
  tight : IsTight core
  before : ∀ c ∈ front, isBlank c
  after : ∀ c ∈ back, isBlank c

/-- Trimming takes the blanks away at both ends and no more. -/
theorem Frames.trim_eq {text front core back : List Char} (frames : Frames text front core back) :
    trim text = core := by
  obtain ⟨rfl, tight, before, after⟩ := frames
  obtain ⟨c, starts, visible⟩ := tight.first
  have first : ∃ c ∈ (core ++ back).head?, isBlank c = false := by
    refine ⟨c, ?_, visible⟩
    rw [List.head?_append, starts]
    rfl
  have last : ∃ c ∈ core.reverse.head?, isBlank c = false := by
    rw [List.head?_reverse]
    exact tight.last
  have areBlank : ∀ c ∈ back.reverse, isBlank c :=
    fun c member => after c (List.mem_reverse.1 member)
  rw [trim, List.append_assoc, trimStart_append before first, List.reverse_append,
    trimStart_append areBlank last, List.reverse_reverse]

/-- A text that is not blank has a core. -/
theorem exists_frames {text : List Char} (visible : ∃ c ∈ text, isBlank c = false) :
    ∃ front core back, Frames text front core back := by
  induction text with
  | nil =>
    obtain ⟨c, none, -⟩ := visible
    cases none
  | cons c rest ih =>
    by_cases more : ∃ d ∈ rest, isBlank d = false
    · obtain ⟨front, core, back, rfl, tight, before, after⟩ := ih more
      cases blank : isBlank c with
      | true =>
        exact ⟨c :: front, core, back, rfl, tight, List.forall_mem_cons.2 ⟨blank, before⟩, after⟩
      | false =>
        exact ⟨[], c :: front ++ core, back, rfl, tight.append ⟨c, rfl, blank⟩,
          List.forall_mem_nil _, after⟩
    · have after : ∀ d ∈ rest, isBlank d := fun d member =>
        Bool.not_eq_false _ ▸ fun visible => more ⟨d, member, visible⟩
      obtain ⟨d, member, visible⟩ := visible
      rcases List.mem_cons.1 member with rfl | member
      · exact ⟨[], [d], rest, rfl, ⟨⟨d, rfl, visible⟩, ⟨d, rfl, visible⟩⟩,
          List.forall_mem_nil _, after⟩
      · exact absurd ⟨d, member, visible⟩ more

/-- A text is cut at the first character of the class. -/
theorem cutAt?_append {cut : Char → Bool} {before : List Char} (goes : ∀ d ∈ before, cut d = false)
    {c : Char} (stops : cut c) (after : List Char) :
    cutAt? cut (before ++ c :: after) = some (before, after) := by
  induction before with
  | nil => exact if_pos stops
  | cons d before ih =>
    obtain ⟨here, goes⟩ := List.forall_mem_cons.1 goes
    rw [List.cons_append, cutAt?, here, ih goes]
    rfl

/-- There is no quote among blanks. -/
theorem count_quote {blanks : List Char} (areBlank : ∀ c ∈ blanks, isBlank c) :
    blanks.count '"' = 0 :=
  List.count_eq_zero.2 fun member => bne_iff_ne.1 (ne_quote (areBlank _ member)) rfl

/-- The characters of the class stand between quotes: each comes after an odd number of them. -/
def OnlyQuoted (p : Char → Bool) (text : List Char) : Prop :=
  ∀ (place : Nat) (within : place < text.length), p text[place] →
    (text.take place).count '"' % 2 = 1

/-- Before a character that stands only between quotes there is an odd number of them. -/
theorem OnlyQuoted.odd {p : Char → Bool} {before after : List Char} {c : Char}
    (quoted : OnlyQuoted p (before ++ c :: after)) (holds : p c) : before.count '"' % 2 = 1 := by
  have within : before.length < (before ++ c :: after).length := by simp
  simpa [holds] using quoted before.length within

end Text

/-! ### Statements between blanks -/

namespace Statement

variable {session next : Session} {statement : Statement}

/-- A statement is more than blanks. -/
theorem exists_visible {text : String} (parsed : (parse session text).1 = .ok statement) :
    ∃ c ∈ text.toList, Text.isBlank c = false := by
  by_contra none
  have areBlank : ∀ c ∈ text.toList, Text.isBlank c := fun c member =>
    Bool.not_eq_false _ ▸ fun visible => none ⟨c, member, visible⟩
  have scanned := Lexer.scan_blanks areBlank (Nat.le_add_right _ 3) { session } 0
  unfold parse Session.tokenize Session.tokenizeWith at parsed
  simp only [scanned] at parsed
  cases parsed

/-- Blanks around a statement change neither it nor the session. -/
theorem parse_of_blanks {front text back : List Char} (before : ∀ c ∈ front, Text.isBlank c)
    (after : ∀ c ∈ back, Text.isBlank c)
    (parsed : parse session (String.ofList (front ++ text ++ back)) = (.ok statement, next)) :
    parse session (String.ofList text) = (.ok statement, next) := by
  unfold parse at parsed ⊢
  rw [Session.tokenize_append after] at parsed
  rcases tokenized : session.tokenize (String.ofList (front ++ text)) with ⟨result, last⟩
  rw [tokenized] at parsed
  cases result with
  | error cause => cases parsed
  | ok tokens =>
    rw [Session.tokenize_skip before tokenized]
    exact parsed

/-- A statement up to a place between quotes is none, whatever blanks are taken from it. -/
theorem parse_open {front text more : List Char} (before : ∀ c ∈ front, Text.isBlank c)
    (odd : text.count '"' % 2 = 1)
    (parsed : parse session (String.ofList (front ++ (text ++ more))) = (.ok statement, next)) :
    ∃ start, (parse session (String.ofList text)).1 = .error (.unterminatedString start) := by
  unfold parse at parsed
  rcases tokenized : session.tokenize (String.ofList (front ++ (text ++ more))) with ⟨result, last⟩
  rw [tokenized] at parsed
  cases result with
  | error cause => cases parsed
  | ok tokens =>
    obtain ⟨start, failed⟩ := Session.tokenize_open odd (Session.tokenize_skip before tokenized)
    refine ⟨start, ?_⟩
    unfold parse
    simp only [failed]
    rfl

/-- Reading a statement uses up numbers of variables and leaves the rest of the session alone. -/
theorem lends_parse (session : Session) (text : String) :
    session.Lends [] (parse session text).2 := by
  have start : Lexer.Borrows session { session } := session.lends_refl
  exact (start.scan Lexicon.isFixed_standard (text.toList.length + 3) 0 text.toList).close

end Statement

/-! ### Directives that state something -/

namespace Problem

/-- What a statement is stated as. -/
inductive Role where
  | premise
  | goal

/-- The directive for it. -/
def Role.keyword : Role → String
  | premise => "axiom"
  | goal => "prove"

/-- The problem with one more premise or goal. -/
def state (problem : Problem) (statement : Statement) : Role → Problem
  | .premise => { problem with premises := problem.premises ++ [statement] }
  | .goal => { problem with goals := problem.goals ++ [statement] }

/-- The character starts a comment. -/
def startsComment (c : Char) : Bool := c == '#' || c == '%'

variable {problem : Problem} {text source : String} {statement : Statement} {session : Session}

/-- The keyword of a directive has no blank and starts no comment. -/
theorem keyword_ok (role : Role) : (∃ c ∈ role.keyword.toList.head?, Text.isBlank c = false) ∧
    ∀ c ∈ role.keyword.toList, Text.isBlank c = false ∧ startsComment c = false := by
  have clean : role.keyword.toList.all fun c => !Text.isBlank c && !startsComment c := by
    cases role <;> decide
  refine ⟨?_, fun c member => by simpa using List.all_eq_true.1 clean c member⟩
  cases role
  · exact ⟨'a', rfl, by decide⟩
  · exact ⟨'p', rfl, by decide⟩

/-- A directive reads a statement and adds it as a premise or a goal. -/
theorem directive_eq (problem : Problem) (role : Role) (text : List Char) :
    problem.directive role.keyword text =
      (problem.readStatement role.keyword text).map fun read => read.2.state read.1 role := by
  cases role <;> rfl

/-- The content of a line is what comes before a comment, without blanks around it. -/
theorem content_eq (line : List Char) :
    content line = Text.trim (line.takeWhile (!startsComment ·)) := by
  unfold content startsComment
  simp only [Bool.not_or, bne]

/-- A line ends with the last visible character before its comment. -/
theorem content_stated (role : Role) {source front core back : List Char}
    (frames : Text.Frames (source.takeWhile (!startsComment ·)) front core back) :
    content (role.keyword.toList ++ ' ' :: source) =
      role.keyword.toList ++ ' ' :: (front ++ core) := by
  obtain ⟨⟨c, starts, visible⟩, clean⟩ := keyword_ok role
  have kept : ∀ c ∈ role.keyword.toList, (!startsComment c) = true := by
    intro c member
    rw [(clean c member).2]
    rfl
  have whole : Text.IsTight (role.keyword.toList ++ ' ' :: front ++ core) := by
    refine frames.tight.append ⟨c, ?_, visible⟩
    rw [List.head?_append, starts]
    rfl
  rw [content_eq, List.takeWhile_append_of_pos kept, List.takeWhile_cons_of_pos rfl, frames.split]
  refine Text.Frames.trim_eq ⟨?_, ?_, List.forall_mem_nil _, frames.after⟩
  · simp
  · simpa using whole

/-- After the directive comes the core of the rest. -/
theorem words_stated (role : Role) {front core : List Char} (tight : Text.IsTight core)
    (before : ∀ c ∈ front, Text.isBlank c) :
    words (role.keyword.toList ++ ' ' :: (front ++ core)) = (role.keyword.toList, core) := by
  have frames : Text.Frames (front ++ core) front core [] :=
    ⟨(List.append_nil _).symm, tight, before, List.forall_mem_nil _⟩
  have clean := fun c member => ((keyword_ok role).2 c member).1
  rw [words, Text.cutAt?_append clean (by decide)]
  simp only [frames.trim_eq]

/-- Between the directive and the comment, what is not blank is read as a statement. -/
theorem readLine_eq (problem : Problem) (role : Role) {source front core back : List Char}
    (frames : Text.Frames (source.takeWhile (!startsComment ·)) front core back) (number : Nat) :
    problem.readLine (role.keyword.toList ++ ' ' :: source, number) =
      (problem.directive role.keyword core).mapError (⟨number, ·⟩) := by
  unfold readLine
  dsimp only
  rw [content_stated role frames]
  split
  · rename_i empty
    cases (List.append_eq_nil_iff.1 empty).2
  · rw [words_stated role frames.tight frames.before, String.ofList_toList]

/-- One more line is read in the problem that the lines before it are. -/
theorem parse_appendLine (parsed : parse text = .ok problem) {line : String}
    (nonempty : line.toList ≠ []) (single : '\n' ∉ line.toList) :
    parse (Text.appendLine text line) =
      problem.readLine (line.toList, (Text.lines text.toList).length + 1) := by
  unfold parse at parsed ⊢
  dsimp only at parsed ⊢
  rw [Text.lines_appendLine text nonempty single, List.zipIdx_append, foldlM_append_of_ok parsed,
    Nat.add_comm 1]
  simp

/-- A line is a keyword, a blank and a statement. -/
theorem toList_line (role : Role) (source : String) :
    (role.keyword ++ " " ++ source).toList = role.keyword.toList ++ ' ' :: source.toList := by
  simp [String.toList_append]

/-- A directive with a statement on one line has no line break. -/
theorem not_mem_line (role : Role) (single : '\n' ∉ source.toList) :
    '\n' ∉ role.keyword.toList ++ ' ' :: source.toList := by
  intro member
  rcases List.mem_append.1 member with inside | inside
  · have visible := ((keyword_ok role).2 _ inside).1
    cases visible
  · rcases List.mem_cons.1 inside with same | inside
    · cases same
    · exact single inside

/-- A line that states something is read as what it states. -/
theorem parse_stated (parsed : parse text = .ok problem) (single : '\n' ∉ source.toList)
    (role : Role) {front core back : List Char}
    (frames : Text.Frames (source.toList.takeWhile (!startsComment ·)) front core back) :
    parse (Text.appendLine text (role.keyword ++ " " ++ source)) =
      match Statement.parse problem.session (String.ofList core) with
      | (.error cause, _) => .error ⟨(Text.lines text.toList).length + 1, .statement cause⟩
      | (.ok statement, session) => .ok ({ problem with session }.state statement role) := by
  have nonempty : ¬ core.isEmpty = true := by simpa using frames.tight.ne_nil
  have line := toList_line role source
  rw [parse_appendLine parsed (by simp [line]) (line ▸ not_mem_line role single), line,
    readLine_eq problem role frames, directive_eq, readStatement, if_neg nonempty]
  rcases Statement.parse problem.session (String.ofList core) with ⟨cause | statement, session⟩ <;> rfl

/-- A statement without comment signs is the same on a line. -/
theorem parse_stated_of_clean (parsed : parse text = .ok problem) (single : '\n' ∉ source.toList)
    (stated : Statement.parse problem.session source = (.ok statement, session))
    (clean : ∀ c ∈ source.toList, startsComment c = false) (role : Role) :
    parse (Text.appendLine text (role.keyword ++ " " ++ source)) =
      .ok ({ problem with session }.state statement role) := by
  have visible := Statement.exists_visible (congrArg Prod.fst stated)
  obtain ⟨front, core, back, frames⟩ := Text.exists_frames visible
  have whole : source.toList.takeWhile (!startsComment ·) = source.toList := by
    refine List.takeWhile_eq_self_iff.2 fun c member => ?_
    rw [clean c member]
    rfl
  rw [← String.ofList_toList (s := source), frames.split] at stated
  rw [parse_stated parsed single role (whole.symm ▸ frames),
    Statement.parse_of_blanks frames.before frames.after stated]

/-- A line is cut at the first comment sign. -/
theorem exists_comment {line : List Char} (comment : ∃ c ∈ line, startsComment c) :
    ∃ c after, line = line.takeWhile (!startsComment ·) ++ c :: after ∧ startsComment c := by
  have split := List.takeWhile_append_dropWhile (p := (!startsComment ·)) (l := line)
  have stops := List.head?_dropWhile_not (!startsComment ·) line
  cases rest : line.dropWhile (!startsComment ·) with
  | nil =>
    obtain ⟨c, member, starts⟩ := comment
    have goes := List.dropWhile_eq_nil_iff.1 rest c member
    rw [starts] at goes
    cases goes
  | cons c after =>
    rw [rest] at split stops
    exact ⟨c, after, split.symm, by simpa using stops⟩

/-- A quoted text in which a comment starts does not end. -/
theorem parse_stated_of_comment (parsed : parse text = .ok problem)
    (single : '\n' ∉ source.toList)
    (stated : Statement.parse problem.session source = (.ok statement, session))
    (quoted : Text.OnlyQuoted startsComment source.toList)
    (comment : ∃ c ∈ source.toList, startsComment c) (role : Role) :
    ∃ start, parse (Text.appendLine text (role.keyword ++ " " ++ source)) =
      .error ⟨(Text.lines text.toList).length + 1, .statement (.unterminatedString start)⟩ := by
  obtain ⟨c, after, split, starts⟩ := exists_comment comment
  have odd := (split ▸ quoted : Text.OnlyQuoted startsComment (_ ++ c :: after)).odd starts
  have quote : 0 < (source.toList.takeWhile (!startsComment ·)).count '"' := by omega
  obtain ⟨front, core, back, frames⟩ :=
    Text.exists_frames ⟨'"', List.count_pos_iff.1 quote, by decide⟩
  rw [frames.split, List.count_append, List.count_append, Text.count_quote frames.before,
    Text.count_quote frames.after] at odd
  rw [← String.ofList_toList (s := source), split, frames.split, List.append_assoc,
    List.append_assoc] at stated
  obtain ⟨start, unfinished⟩ := Statement.parse_open frames.before (by omega) stated
  refine ⟨start, ?_⟩
  rw [parse_stated parsed single role frames]
  rcases failed : Statement.parse problem.session (String.ofList core) with ⟨result, last⟩
  rw [failed] at unfinished
  obtain rfl : result = _ := unfinished
  rfl

/-- Where a statement can be read, it can be stated on a line, unless it has a comment sign between
quotes. Then the quoted text ends with the comment and is refused. -/
theorem parse_appendLine_statement (parsed : parse text = .ok problem)
    (single : '\n' ∉ source.toList)
    (stated : Statement.parse problem.session source = (.ok statement, session))
    (quoted : Text.OnlyQuoted startsComment source.toList) (role : Role) :
    ((∀ c ∈ source.toList, startsComment c = false) →
      parse (Text.appendLine text (role.keyword ++ " " ++ source)) =
          .ok ({ problem with session }.state statement role) ∧
        session = { problem.session with nextVariable := session.nextVariable }) ∧
    ((∃ c ∈ source.toList, startsComment c) → ∃ start,
      parse (Text.appendLine text (role.keyword ++ " " ++ source)) =
        .error ⟨(Text.lines text.toList).length + 1,
          .statement (.unterminatedString start)⟩) := by
  refine ⟨fun clean => ⟨parse_stated_of_clean parsed single stated clean role, ?_⟩,
    fun comment => parse_stated_of_comment parsed single stated quoted comment role⟩
  obtain ⟨entries, number, -, none, same⟩ := Statement.lends_parse problem.session source
  obtain rfl := List.map_eq_nil_iff.1 (List.nil_perm.1 none)
  rw [stated] at same
  obtain rfl : session = _ := same
  rfl

/-- A file of two declarations and a goal. -/
def declaredText : String := "relation P(2)\nconstant a\nprove P(a, a)"

/-- A statement with blanks around it and inside of its quotes. -/
def spacedSource : String := "\t FORALL x: P(x, \"a  b\") => P(x, y) "

/-- A statement with blanks around it and inside of its quotes is stated by a line appended to a
file. -/
theorem parse_appendLine_statement_spaced :
    ∃ problem statement session, parse declaredText = .ok problem ∧
      Statement.parse problem.session spacedSource = (.ok statement, session) ∧
      parse (Text.appendLine declaredText ("axiom " ++ spacedSource)) =
        .ok { problem with session, premises := problem.premises ++ [statement] } := by
  have single : '\n' ∉ spacedSource.toList := by decide
  have clean : spacedSource.toList.all (!startsComment ·) := by decide
  have quoted : Text.OnlyQuoted startsComment spacedSource.toList := by
    unfold Text.OnlyQuoted
    decide
  obtain ⟨problem, statement, session, parsed, stated⟩ : ∃ problem statement session,
      parse declaredText = .ok problem ∧
        Statement.parse problem.session spacedSource = (.ok statement, session) :=
    ⟨_, _, _, rfl, rfl⟩
  refine ⟨problem, statement, session, parsed, stated,
    ((parse_appendLine_statement parsed single stated quoted .premise).1 fun c member => ?_).1⟩
  simpa using List.all_eq_true.1 clean c member

/-- A comment sign can stand between quotes in a statement, but not on a line. -/
theorem parse_appendLine_comment_sign :
    (∃ statement session, parse "" = .ok {} ∧
      Statement.parse Session.empty "\"#\" == \"#\"" = (.ok statement, session)) ∧
    Text.OnlyQuoted startsComment "\"#\" == \"#\"".toList ∧
    ∀ role : Role, parse (Text.appendLine "" (role.keyword ++ " " ++ "\"#\" == \"#\"")) =
      .error ⟨1, .statement (.unterminatedString 0)⟩ := by
  refine ⟨⟨_, _, rfl, rfl⟩, by unfold Text.OnlyQuoted; decide, fun role => ?_⟩
  cases role <;> rfl

end Problem

end Refute
