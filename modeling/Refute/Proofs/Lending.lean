import Refute.Proofs.Scoping

/-!
# Lending a session

A reader is lent a session, and while scopes are open it holds more bindings than it was lent: one
for each name of an open scope and of an unfinished header. These lie above the bindings that were
lent, so releasing a name drops one of them. Every token keeps this account, and so does a token
that is read and refused. When the reader stops, it releases what it holds, and the session comes
back as it was, but for the counter of variables.
-/

namespace Refute

namespace Session

/-- The second session is the first one with bindings of the names above its own, and with a later
number for the next variable. -/
def Lends (session : Session) (names : List String) (lent : Session) : Prop :=
  ∃ entries number, session.nextVariable ≤ number ∧ names.Perm (entries.map Prod.fst) ∧
    lent = { session with bindings := entries ++ session.bindings, nextVariable := number }

variable {session lent : Session} {names others : List String}

/-- A session that has just been lent holds nothing more. -/
theorem lends_refl (session : Session) : session.Lends [] session :=
  ⟨[], session.nextVariable, Nat.le_refl _, .refl _, rfl⟩

/-- In which order names are held does not matter. -/
theorem Lends.perm (lends : session.Lends names lent) (perm : others.Perm names) :
    session.Lends others lent := by
  obtain ⟨entries, number, le, same, rfl⟩ := lends
  exact ⟨entries, number, le, perm.trans same, rfl⟩

/-- Drawing a number binds nothing. -/
theorem Lends.freshVariable (lends : session.Lends names lent) (name : String) :
    session.Lends names (lent.freshVariable name).2 := by
  obtain ⟨entries, number, le, same, rfl⟩ := lends
  exact ⟨entries, number + 1, Nat.le_succ_of_le le, same, rfl⟩

/-- Binding a name adds it to those that are held. -/
theorem Lends.bindVariable (lends : session.Lends names lent) (name : String) :
    session.Lends (name :: names) (lent.bindVariable name).2 := by
  obtain ⟨entries, number, le, same, rfl⟩ := lends
  exact ⟨(name, _) :: entries, number + 1, Nat.le_succ_of_le le, same.cons name, rfl⟩

/-- Names that are released are no longer held. -/
theorem Lends.release (lends : session.Lends (names ++ others) lent) :
    session.Lends others (Lexer.release lent names) := by
  obtain ⟨entries, number, le, same, whole⟩ := lends
  have above : lent.bindings = entries ++ session.bindings := by rw [whole]
  obtain ⟨left, released, kept⟩ := Lexer.exists_bindings_release above same
  refine ⟨left, number, le, kept, ?_⟩
  rw [Lexer.release_eq, released, whole]

end Session

namespace Lexer

variable {session : Session} {lexicon : Lexicon} {lexer resolved next : Lexer} {symbol : Symbol}

/-- The names that the reader holds bindings of. -/
def held (lexer : Lexer) : List String :=
  lexer.scopes.flatMap Scope.names ++ lexer.header.names

/-- The reader holds the session it was lent and the bindings of its own names. -/
def Borrows (session : Session) (lexer : Lexer) : Prop :=
  session.Lends lexer.held lexer.session

/-- After a name is resolved, the reader holds a binding more if the name stands in a header. -/
theorem Borrows.resolves (borrows : lexer.Borrows session)
    (resolves : lexer.Resolves symbol resolved) :
    (resolved.Borrows session ∧ (resolved.header = .closed ∨ symbol.isFixed)) ∨
      ∃ v, symbol = .var v ∧ resolved.header ≠ .closed ∧
        session.Lends (v.name :: resolved.held) resolved.session := by
  cases resolves with
  | fixed isFixed => exact .inl ⟨borrows, .inr isFixed⟩
  | introduced name inside => exact .inr ⟨_, rfl, inside, Session.Lends.bindVariable borrows name⟩
  | bound outside found => exact .inl ⟨borrows, .inl outside⟩
  | met outside unbound known => exact .inl ⟨borrows, .inl outside⟩
  | @new name outside unbound unknown =>
    exact .inl ⟨Session.Lends.freshVariable borrows name, .inl outside⟩

/-- Closing a group releases the names of the scopes that it closes. -/
theorem Borrows.closeGroup (borrows : lexer.Borrows session) :
    lexer.closeGroup.Borrows session := by
  have split : lexer.held =
      (lexer.scopes.takeWhile (lexer.depth - 1 < ·.depth)).flatMap Scope.names ++
        lexer.closeGroup.held := by
    change _ = _ ++ ((lexer.scopes.dropWhile (lexer.depth - 1 < ·.depth)).flatMap Scope.names ++ _)
    rw [← List.append_assoc, ← List.flatMap_append, List.takeWhile_append_dropWhile]
    rfl
  unfold Borrows at borrows
  rw [split] at borrows
  exact borrows.release

/-- What a symbol does outside of headers keeps the account. -/
theorem Borrows.enter (borrows : lexer.Borrows session) (closed : lexer.header = .closed)
    (symbol : Symbol) : (lexer.enter symbol).Borrows session := by
  cases symbol with
  | rightParen => exact borrows.closeGroup
  | quantifier q =>
    unfold Borrows held at borrows
    rw [closed] at borrows
    exact borrows
  | _ => exact borrows

/-- The names of a header that is complete are those of a new scope. -/
theorem Borrows.openScope {names : List String}
    (borrows : session.Lends (lexer.scopes.flatMap Scope.names ++ names) lexer.session) :
    (lexer.openScope names).Borrows session := by
  refine borrows.perm ?_
  change ((names ++ lexer.scopes.flatMap Scope.names) ++ []).Perm _
  rw [List.append_nil]
  exact List.perm_append_comm

/-- A variable of a header belongs to the header or to a new scope. -/
theorem Borrows.accept_variable {v : Variable} (inside : lexer.header ≠ .closed)
    (lends : session.Lends (v.name :: lexer.held) lexer.session) :
    ∃ next, lexer.accept (.var v) = .ok next ∧ next.Borrows session := by
  have added : (lexer.held ++ [v.name]).Perm (v.name :: lexer.held) :=
    List.perm_append_singleton v.name lexer.held
  have lends := lends.perm added
  unfold held at lends
  unfold accept advance
  cases header : lexer.header with
  | closed => exact absurd header inside
  | opened =>
    rw [header] at lends
    exact ⟨_, rfl, Borrows.openScope (by simpa [Header.names] using lends)⟩
  | listed names =>
    rw [header, List.append_assoc] at lends
    exact ⟨_, rfl, lends⟩

/-- A symbol that is not introduced by a header keeps the account. -/
theorem Borrows.accept (borrows : lexer.Borrows session)
    (outside : lexer.header = .closed ∨ symbol.isFixed)
    (accepted : lexer.accept symbol = .ok next) : next.Borrows session := by
  obtain ⟨moved, advanced, same⟩ := bind_eq_ok_iff.1 accepted
  obtain rfl := Except.ok.inj same
  change moved.Borrows session
  unfold advance at advanced
  cases header : lexer.header with
  | closed =>
    rw [header] at advanced
    exact Except.ok.inj advanced ▸ borrows.enter header symbol
  | opened =>
    have isFixed : symbol.isFixed := outside.resolve_left (by rw [header]; exact Header.noConfusion)
    unfold Borrows held at borrows
    rw [header] at advanced borrows
    cases symbol with
    | var v => cases isFixed
    | leftParen => exact Except.ok.inj advanced ▸ borrows
    | _ =>
      have closed : Borrows session { lexer with header := .closed } := borrows
      exact Except.ok.inj advanced ▸ closed.enter rfl _
  | listed names =>
    have isFixed : symbol.isFixed := outside.resolve_left (by rw [header]; exact Header.noConfusion)
    rw [header] at advanced
    cases symbol with
    | var v => cases isFixed
    | comma => exact Except.ok.inj advanced ▸ borrows
    | rightParen =>
      unfold Borrows held at borrows
      rw [header] at borrows
      exact Except.ok.inj advanced ▸ Borrows.openScope borrows
    | _ => cases advanced

/-- A step keeps the account, whether or not it takes a token. -/
theorem Borrows.step (borrows : lexer.Borrows session) (fixed : lexicon.isFixed) (offset : Nat)
    (c : Char) (rest : List Char) : (lexer.step lexicon offset c rest).2.Borrows session := by
  rcases stepped : lexer.step lexicon offset c rest with ⟨result, next⟩
  obtain ⟨_, symbol, -, resolved, resolves, accepted⟩ | ⟨_, -, same⟩ |
    ⟨_, symbol, -, resolves, refused⟩ := step_cases fixed stepped
  · obtain ⟨kept, outside⟩ | ⟨v, rfl, inside, lends⟩ := borrows.resolves resolves
    · exact kept.accept outside accepted
    · obtain ⟨other, taken, kept⟩ := Borrows.accept_variable inside lends
      obtain rfl := Except.ok.inj (taken.symm.trans accepted)
      exact kept
  · exact same ▸ borrows
  · obtain ⟨kept, -⟩ | ⟨v, rfl, inside, lends⟩ := borrows.resolves resolves
    · exact kept
    · obtain ⟨other, taken, -⟩ := Borrows.accept_variable inside lends
      cases taken.symm.trans refused

/-- A text keeps the account, whether or not it can be read. -/
theorem Borrows.scan (borrows : lexer.Borrows session) (fixed : lexicon.isFixed) (fuel offset : Nat)
    (text : List Char) : (scan lexicon fuel lexer offset text).2.Borrows session := by
  induction fuel generalizing lexer offset text with
  | zero => cases text <;> exact borrows
  | succ fuel ih =>
    cases text with
    | nil => exact borrows
    | cons c rest =>
      unfold Lexer.scan
      split
      · exact ih borrows _ _
      · have kept := borrows.step fixed offset c rest
        split
        · rename_i stepped
          rw [stepped] at kept
          exact kept
        · rename_i stepped
          rw [stepped] at kept
          exact ih kept _ _

/-- A reader that stops holds nothing any more. -/
theorem Borrows.close (borrows : lexer.Borrows session) : session.Lends [] lexer.close := by
  have released : lexer.close = release lexer.session lexer.held := by
    unfold Lexer.close release held
    rw [List.foldl_append]
  rw [released]
  exact Session.Lends.release (by rwa [List.append_nil])

end Lexer

/-- Whether or not a text can be read, the session comes back with the bindings, declarations and
counters it had, except that new variables have used up numbers. -/
theorem Session.tokenize_gives_back (session : Session) (text : String) :
    ∃ number, session.nextVariable ≤ number ∧
      (session.tokenize text).2 = { session with nextVariable := number } := by
  have start : Lexer.Borrows session { session } := session.lends_refl
  have borrows := start.scan Lexicon.isFixed_standard (text.toList.length + 3) 0 text.toList
  obtain ⟨entries, number, le, none, same⟩ := borrows.close
  obtain rfl := List.map_eq_nil_iff.1 (List.nil_perm.1 none)
  exact ⟨number, le, same⟩

end Refute
