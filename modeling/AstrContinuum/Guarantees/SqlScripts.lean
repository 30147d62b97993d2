import AstrContinuum.Storage.Migrations

/-!
# Scripts of migrations

`_iter_sql_statements` cuts a script behind every semicolon at which the text since the last cut is
complete for SQLite, and at no other place (`sql_scripts`). It loses nothing but the spaces around the
statements and what follows on the last one, which may hold spaces and comments only.
-/

namespace AstrContinuum

namespace Migrations

variable {complete : String → Bool}

/-- A text that ends with a semicolon. -/
def EndsStatement (text : List Char) : Prop :=
  ∃ body, text = body ++ [';']

/-- No cut is made in a text. -/
def Uncut (complete : String → Bool) (text : List Char) : Prop :=
  ∀ shorter, shorter <+: text → EndsStatement shorter → complete (String.ofList shorter) = false

/-- A text that is cut at its end, and not before. -/
structure CutAtEnd (complete : String → Bool) (piece : List Char) : Prop where
  ends : EndsStatement piece
  isComplete : complete (String.ofList piece) = true
  first : ∀ shorter, shorter <+: piece → shorter ≠ piece → EndsStatement shorter →
    complete (String.ofList shorter) = false

/-- The pieces of a script, and what follows on the last of them. -/
structure CutInto (complete : String → Bool) (script : List Char) (pieces : List (List Char))
    (remainder : List Char) : Prop where
  joined : script = pieces.flatten ++ remainder
  pieces : ∀ piece ∈ pieces, CutAtEnd complete piece
  remainder : Uncut complete remainder

/-- The statements of the pieces: without the spaces around them, unless nothing else is left. -/
def statementsOf (pieces : List (List Char)) : List String :=
  (pieces.map fun piece => String.ofList (stripChars piece)).filter fun statement => statement ≠ ""

/-- Nothing is not cut. -/
theorem uncut_nil (complete : String → Bool) : Uncut complete [] := by
  intro shorter hshorter hends
  obtain ⟨body, rfl⟩ := hends
  exact absurd (List.prefix_nil.mp hshorter) (List.append_ne_nil_of_right_ne_nil _ (List.cons_ne_nil _ _))

/-- One character more does not cut a text, or cuts it there. -/
theorem Uncut.snoc {buffer : List Char} (h : Uncut complete buffer) (c : Char) :
    (c = ';' ∧ complete (String.ofList (buffer ++ [c])) = true → CutAtEnd complete (buffer ++ [c])) ∧
      (¬ (c = ';' ∧ complete (String.ofList (buffer ++ [c])) = true) →
        Uncut complete (buffer ++ [c])) := by
  constructor
  · rintro ⟨rfl, hcomplete⟩
    refine ⟨⟨buffer, rfl⟩, hcomplete, fun shorter hshorter hother hends => ?_⟩
    -- what is shorter stood in the buffer before this character
    rcases List.prefix_concat_iff.mp hshorter with hsame | hprefix
    · exact absurd hsame hother
    · exact h shorter hprefix hends
  · intro hopen shorter hshorter hends
    rcases List.prefix_concat_iff.mp hshorter with rfl | hprefix
    · obtain ⟨body, hbody⟩ := hends
      obtain ⟨-, hlast⟩ := List.append_inj' hbody rfl
      have hsemicolon : c = ';' := List.head_eq_of_cons_eq hlast
      exact Bool.eq_false_of_not_eq_true fun hcomplete => hopen ⟨hsemicolon, hcomplete⟩
    · exact h shorter hprefix hends

/-- A piece is cut off in front of the others. -/
theorem CutInto.cons {piece rest remainder : List Char} {pieces : List (List Char)}
    (hpiece : CutAtEnd complete piece) (h : CutInto complete rest pieces remainder) :
    CutInto complete (piece ++ rest) (piece :: pieces) remainder := by
  refine ⟨?_, List.forall_mem_cons.mpr ⟨hpiece, h.pieces⟩, h.remainder⟩
  rw [List.flatten_cons, List.append_assoc, ← h.joined]

/-- What is behind the first piece is cut into the others. -/
theorem CutInto.tail {piece rest remainder : List Char} {pieces : List (List Char)}
    (h : CutInto complete (piece ++ rest) (piece :: pieces) remainder) :
    CutInto complete rest pieces remainder := by
  refine ⟨?_, fun other hmem => h.pieces other (List.mem_cons_of_mem _ hmem), h.remainder⟩
  have hjoined := h.joined
  rw [List.flatten_cons, List.append_assoc] at hjoined
  exact List.append_cancel_left hjoined

/-- The first piece starts the script. -/
theorem CutInto.starts {piece script remainder : List Char} {pieces : List (List Char)}
    (h : CutInto complete script (piece :: pieces) remainder) : piece <+: script := by
  rw [h.joined, List.flatten_cons, List.append_assoc]
  exact List.prefix_append _ _

/-- A piece with spaces only has no statement. -/
theorem statementsOf_cons (piece : List Char) (pieces : List (List Char)) :
    statementsOf (piece :: pieces) =
      if String.ofList (stripChars piece) = "" then statementsOf pieces
      else String.ofList (stripChars piece) :: statementsOf pieces := by
  simp only [statementsOf, List.map_cons]
  split_ifs with hempty
  · rw [List.filter_cons_of_neg (by simpa using hempty)]
  · rw [List.filter_cons_of_pos (by simpa using hempty)]

/-- A script is cut into pieces, behind a text that is not cut. -/
theorem splitStatements_cuts (rest : List Char) {buffer : List Char} (h : Uncut complete buffer) :
    ∃ pieces, CutInto complete (buffer ++ rest) pieces (splitStatements complete buffer rest).2 ∧
      (splitStatements complete buffer rest).1 = statementsOf pieces := by
  induction rest generalizing buffer with
  | nil => exact ⟨[], ⟨List.append_nil _, fun _ hpiece => absurd hpiece List.not_mem_nil, h⟩, rfl⟩
  | cons c rest ih =>
      obtain ⟨hcut, hopen⟩ := h.snoc c
      have hscript : buffer ++ c :: rest = buffer ++ [c] ++ rest := by
        rw [List.append_assoc]
        rfl
      rw [hscript]
      by_cases hhere : c = ';' ∧ complete (String.ofList (buffer ++ [c])) = true
      · obtain ⟨pieces, hpieces, hstatements⟩ := ih (uncut_nil complete)
        refine ⟨(buffer ++ [c]) :: pieces, ?_, ?_⟩
        · rw [splitStatements, if_pos hhere]
          exact hpieces.cons (hcut hhere)
        · rw [splitStatements, if_pos hhere, statementsOf_cons, ← hstatements]
      · obtain ⟨pieces, hpieces, hstatements⟩ := ih (hopen hhere)
        refine ⟨pieces, ?_, ?_⟩
        · rw [splitStatements, if_neg hhere]
          exact hpieces
        · rw [splitStatements, if_neg hhere]
          exact hstatements

/-- A text that is not cut starts with no piece. -/
theorem Uncut.not_starts {piece text : List Char} (h : Uncut complete text)
    (hpiece : CutAtEnd complete piece) : ¬ piece <+: text := by
  intro hshorter
  have hopen := h piece hshorter hpiece.ends
  rw [hpiece.isComplete] at hopen
  cases hopen

/-- Two first pieces of one script are the same. -/
theorem CutAtEnd.eq_of_prefix {piece other script : List Char} (h : CutAtEnd complete piece)
    (hother : CutAtEnd complete other) (hpiece : piece <+: script) (hscript : other <+: script) :
      piece = other := by
  by_contra hdiffer
  rcases List.prefix_or_prefix_of_prefix hpiece hscript with hshorter | hshorter
  · have hopen := hother.first piece hshorter hdiffer h.ends
    rw [h.isComplete] at hopen
    cases hopen
  · have hopen := h.first other hshorter (Ne.symm hdiffer) hother.ends
    rw [hother.isComplete] at hopen
    cases hopen

/-- There is one way to cut a script. -/
theorem CutInto.unique {script remainder remainder' : List Char} {pieces pieces' : List (List Char)}
    (h : CutInto complete script pieces remainder) (h' : CutInto complete script pieces' remainder') :
    pieces = pieces' ∧ remainder = remainder' := by
  induction pieces generalizing script pieces' with
  | nil =>
      have hscript : script = remainder := h.joined
      cases pieces' with
      | nil => exact ⟨rfl, hscript.symm.trans h'.joined⟩
      | cons piece pieces' =>
          exact absurd (hscript ▸ h'.starts)
            (h.remainder.not_starts (h'.pieces piece List.mem_cons_self))
  | cons piece pieces ih =>
      have hpiece := h.pieces piece List.mem_cons_self
      cases pieces' with
      | nil =>
          have hscript : script = remainder' := h'.joined
          exact absurd (hscript ▸ h.starts) (h'.remainder.not_starts hpiece)
      | cons piece' pieces' =>
          -- neither of the two first pieces can end inside the other
          obtain rfl := hpiece.eq_of_prefix (h'.pieces piece' List.mem_cons_self) h.starts
            h'.starts
          obtain ⟨rest, rfl⟩ := h.starts
          obtain ⟨rfl, hsame⟩ := ih h.tail h'.tail
          exact ⟨rfl, hsame⟩

/-! ## Comments -/

/-- Spaces and comments: lines from `--` on, and blocks from `/*` to the next `*/`. -/
inductive Comments : List Char → Prop
  | nil : Comments []
  | space {c : Char} {rest : List Char} : isPythonSpace c = true → Comments rest → Comments (c :: rest)
  | line {body rest : List Char} : '\n' ∉ body → Comments rest →
    Comments ('-' :: '-' :: (body ++ '\n' :: rest))
  | lastLine {body : List Char} : '\n' ∉ body → Comments ('-' :: '-' :: body)
  | block {body rest : List Char} : ¬ ['*', '/'] <:+: body → Comments rest →
      Comments ('/' :: '*' :: (body ++ '*' :: '/' :: rest))

/-- What is left of a text of comments, inside one or not. -/
def CommentsFrom : CommentState → List Char → Prop
  | .code, text => Comments text
  | .line, text => ∃ body, '\n' ∉ body ∧ (text = body ∨ ∃ rest, text = body ++ '\n' :: rest ∧
    Comments rest)
  | .block, text => ∃ body rest, ¬ ['*', '/'] <:+: body ∧ text = body ++ '*' :: '/' :: rest ∧
    Comments rest

/-- A line comment is skipped. -/
theorem isCommentOnly_line {body : List Char} (h : '\n' ∉ body) (rest : List Char) :
    isCommentOnly .line (body ++ '\n' :: rest) = isCommentOnly .code rest := by
  induction body with
  | nil => simp [isCommentOnly]
  | cons c body ih =>
      have hc : c ≠ '\n' := fun hsame => h (hsame ▸ List.mem_cons_self)
      rw [List.cons_append, isCommentOnly, if_neg hc]
      exact ih fun hmem => h (List.mem_cons_of_mem _ hmem)

/-- So is one at the end. -/
theorem isCommentOnly_lastLine {body : List Char} (h : '\n' ∉ body) :
    isCommentOnly .line body = true := by
  induction body with
  | nil => simp [isCommentOnly]
  | cons c body ih =>
      have hc : c ≠ '\n' := fun hsame => h (hsame ▸ List.mem_cons_self)
      rw [isCommentOnly, if_neg hc]
      exact ih fun hmem => h (List.mem_cons_of_mem _ hmem)

/-- A block comment is skipped up to its first end. -/
theorem isCommentOnly_block {body : List Char} (h : ¬ ['*', '/'] <:+: body) (rest : List Char) :
    isCommentOnly .block (body ++ '*' :: '/' :: rest) = isCommentOnly .code rest := by
  induction body with
  | nil => simp [isCommentOnly]
  | cons c body ih =>
      have hbody : ¬ ['*', '/'] <:+: body :=
        fun hinner => h (hinner.trans (List.suffix_cons c body).isInfix)
      rw [List.cons_append, ← ih hbody]
      -- no end starts at the first character
      by_cases hc : c = '*'
      · subst hc
        cases body with
        | nil => simp [isCommentOnly]
        | cons next body =>
            have hnext : next ≠ '/' := by
              rintro rfl
              exact h ⟨[], body, rfl⟩
            rw [List.cons_append, isCommentOnly]
            intro tail _ hsame
            exact hnext (List.head_eq_of_cons_eq hsame)
      · rw [isCommentOnly]
        intro tail hsame
        exact absurd hsame hc

/-- A text that is accepted is one of comments. -/
theorem commentsFrom_of_isCommentOnly {state : CommentState} {text : List Char}
    (h : isCommentOnly state text = true) : CommentsFrom state text := by
  fun_induction isCommentOnly state text with
  | case1 => exact .nil
  | case2 rest ih =>
      obtain ⟨body, hbody, rfl | ⟨rest', rfl, hrest⟩⟩ := ih h
      · exact .lastLine hbody
      · exact .line hbody hrest
  | case3 rest ih =>
      obtain ⟨body, rest', hbody, rfl, hrest⟩ := ih h
      exact .block hbody hrest
  | case4 c rest _ _ hspace ih => exact .space hspace (ih h)
  | case5 => cases h
  | case6 => exact ⟨[], List.not_mem_nil, .inl rfl⟩
  | case7 rest ih => exact ⟨[], List.not_mem_nil, .inr ⟨rest, rfl, ih h⟩⟩
  | case8 c rest hc ih =>
      obtain ⟨body, hbody, hrest⟩ := ih h
      refine ⟨c :: body, ?_, ?_⟩
      · intro hmem
        rcases List.mem_cons.mp hmem with hsame | hinner
        · exact hc hsame.symm
        · exact hbody hinner
      · rcases hrest with rfl | ⟨rest', rfl, hcomments⟩
        · exact .inl rfl
        · exact .inr ⟨rest', rfl, hcomments⟩
  | case9 => cases h
  | case10 rest ih => exact ⟨[], rest, by simp, rfl, ih h⟩
  | case11 c rest hother ih =>
      obtain ⟨body, rest', hbody, rfl, hrest⟩ := ih h
      refine ⟨c :: body, rest', ?_, rfl, hrest⟩
      intro hinner
      rcases List.infix_cons_iff.mp hinner with hstart | hlater
      · obtain ⟨tail, htail⟩ := hstart
        obtain ⟨rfl, hsame⟩ := List.cons.inj htail
        exact hother (tail ++ '*' :: '/' :: rest') rfl (by rw [← hsame]; rfl)
      · exact hbody hlater

/-- The characters that start a comment are no spaces. -/
theorem isPythonSpace_starts : isPythonSpace '-' = false ∧ isPythonSpace '/' = false := by
  decide

/-- And the other way round. -/
theorem isCommentOnly_of_comments {text : List Char} (h : Comments text) :
    isCommentOnly .code text = true := by
  induction h with
  | nil => simp [isCommentOnly]
  | @space c rest hspace _ ih =>
      have hdash : c ≠ '-' := fun hsame => by simp [hsame, isPythonSpace_starts.1] at hspace
      have hslash : c ≠ '/' := fun hsame => by simp [hsame, isPythonSpace_starts.2] at hspace
      rw [isCommentOnly, if_pos hspace]
      · exact ih
      · exact fun _ hsame => absurd hsame hdash
      · exact fun _ hsame => absurd hsame hslash
  | line hbody _ ih =>
      rw [isCommentOnly, isCommentOnly_line hbody]
      exact ih
  | lastLine hbody =>
      rw [isCommentOnly]
      exact isCommentOnly_lastLine hbody
  | block hbody _ ih =>
      rw [isCommentOnly, isCommentOnly_block hbody]
      exact ih

/-- What the splitting of a script guarantees. -/
structure SqlScript (complete : String → Bool) (script : List Char) (statements : List String)
    (remainder : List Char) : Prop where
  /-- There is one way to cut the script where it is complete, and the statements are its pieces. -/
  cuts : ∃ pieces, CutInto complete script pieces remainder ∧ statements = statementsOf pieces ∧
    ∀ pieces' remainder', CutInto complete script pieces' remainder' → pieces' = pieces ∧
      remainder' = remainder
  /-- What is left is accepted exactly when it has spaces and comments only. -/
  comments : remainderOk remainder = true ↔ Comments (stripChars remainder)
  /-- A script after one that leaves nothing adds its statements. -/
  composes : ∀ script', remainder = [] →
    splitStatements complete [] (script ++ script') =
      (statements ++ (splitStatements complete [] script').1, (splitStatements complete [] script').2)

/-- Scripts are split into the statements that SQLite sees. -/
theorem sql_scripts (complete : String → Bool) (script : List Char) :
    SqlScript complete script (splitStatements complete [] script).1
      (splitStatements complete [] script).2 := by
  obtain ⟨pieces, hpieces, hstatements⟩ := splitStatements_cuts script (uncut_nil complete)
  rw [List.nil_append] at hpieces
  refine ⟨⟨pieces, hpieces, hstatements, fun pieces' remainder' h => ?_⟩, ?_, fun script' hnone => ?_⟩
  · obtain ⟨hsame, hsame'⟩ := hpieces.unique h
    exact ⟨hsame.symm, hsame'.symm⟩
  · unfold remainderOk
    rw [Bool.or_eq_true, decide_eq_true_iff]
    constructor
    · rintro (hempty | hcomments)
      · rw [hempty]
        exact .nil
      · exact commentsFrom_of_isCommentOnly hcomments
    · exact fun hcomments => .inr (isCommentOnly_of_comments hcomments)
  · obtain ⟨later, hlater, hlaterStatements⟩ := splitStatements_cuts script' (uncut_nil complete)
    obtain ⟨all, hall, hallStatements⟩ := splitStatements_cuts (script ++ script') (uncut_nil complete)
    rw [List.nil_append] at hlater hall
    have hjoined : CutInto complete (script ++ script') (pieces ++ later)
      (splitStatements complete [] script').2 := by
      refine ⟨?_, fun piece hpiece => ?_, hlater.remainder⟩
      · rw [List.flatten_append, List.append_assoc, ← hlater.joined]
        rw [hnone] at hpieces
        rw [← hpieces.joined.trans (List.append_nil _)]
      · exact (List.mem_append.mp hpiece).elim (hpieces.pieces piece) (hlater.pieces piece)
    obtain ⟨rfl, hremainder⟩ := hall.unique hjoined
    refine Prod.ext ?_ hremainder
    rw [hallStatements, hstatements, hlaterStatements]
    simp only [statementsOf, List.map_append, List.filter_append]

end Migrations

end AstrContinuum
