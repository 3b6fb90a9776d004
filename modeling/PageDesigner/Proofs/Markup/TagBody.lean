import PageDesigner.Proofs.Markup.Lexing

/-!
# The inside of a tag

The attributes of a tag follow from the pieces in front of what ends it
(`TagBody.ofText_eq`).  Names and values do not depend on where the tag stands:
`TagBody.entries` reads them without locations.

An attribute takes the pieces from its name up to its value, or the name alone.
The pieces in front of it and behind it are read as if it were not there
(`TagBody.exists_span`).
-/

namespace PageDesigner

/-- An attribute without its place. -/
abbrev Entry := Name × Text

/-- The name and the value of an attribute. -/
def Attribute.entry (stated : Attribute) : Entry := (stated.name, stated.value)

/-- The names and values of a tag. -/
def Tag.entries (tag : Tag) : List Entry := tag.attributes.map Attribute.entry

namespace TagBody

/-- What one piece completes, and the attribute that is open behind it. -/
def pieceStep (pending : Option OpenAttribute) (piece : Piece) (location : Location) :
    List Attribute × Option OpenAttribute :=
  match piece with
  | .token token _ => step pending token location (location.advance piece.lexeme)
  | _ => ([], pending)

/-- What pieces complete, and the attribute that is open behind them. -/
def run (location : Location) (pending : Option OpenAttribute) :
    List Piece → List Attribute × Option OpenAttribute
  | [] => ([], pending)
  | piece :: rest =>
      let here := pieceStep pending piece location
      let later := run (location.advance piece.lexeme) here.2 rest
      (here.1 ++ later.1, later.2)

/-- The attributes of the pieces of a tag that ends behind them. -/
def attributesOf (location : Location) (pending : Option OpenAttribute) (pieces : List Piece) :
    List Attribute :=
  (run location pending pieces).1 ++ ((run location pending pieces).2.map (·.bare)).toList

theorem attributesOf_cons (location : Location) (pending : Option OpenAttribute) (piece : Piece)
    (rest : List Piece) :
    attributesOf location pending (piece :: rest) =
      (pieceStep pending piece location).1 ++
        attributesOf (location.advance piece.lexeme) (pieceStep pending piece location).2 rest := by
  simp [attributesOf, run]

/-! ## Reading a tag -/

theorem ofPieces_cons {piece : Piece} (goesOn : piece.stop? = none) (location : Location)
    (pending : Option OpenAttribute) (rest : List Piece) :
    ofPieces location pending (piece :: rest) =
      (ofPieces (location.advance piece.lexeme) (pieceStep pending piece location).2 rest).after
        (pieceStep pending piece location).1 piece.lexeme.length := by
  simp only [ofPieces, goesOn]
  cases piece <;> rfl

theorem ofPieces_append {pieces : List Piece} (goesOn : ∀ piece ∈ pieces, piece.stop? = none)
    (location : Location) (pending : Option OpenAttribute) (rest : List Piece) :
    ofPieces location pending (pieces ++ rest) =
      (ofPieces (location.advance (Piece.lexemes pieces)) (run location pending pieces).2 rest).after
        (run location pending pieces).1 (Piece.lexemes pieces).length := by
  induction pieces generalizing location pending with
  | nil => simp [after, run]
  | cons piece pieces ih =>
      have others : ∀ other ∈ pieces, other.stop? = none := fun other member =>
        goesOn other (List.mem_cons_of_mem _ member)
      rw [List.cons_append, ofPieces_cons (goesOn piece List.mem_cons_self), ih others]
      simp [after, run, Location.advance_append, Nat.add_assoc]

theorem ofPieces_stop {stop : TagStop} {rest : Text} (starts : stop.Starts rest)
    (location : Location) (pending : Option OpenAttribute) :
    ofPieces location pending (Piece.tagPiecesFrom 0 rest) =
      ⟨(pending.map (·.bare)).toList, stop, location.advance stop.mark, stop.mark.length⟩ := by
  cases starts <;> rfl

/-- The inside of a tag whose pieces are read up to what ends it. -/
theorem ofText_eq {text rest : Text} {pieces : List Piece} {stop : TagStop}
    (reads : Piece.Reads text pieces rest) (starts : stop.Starts rest) (location : Location) :
    ofText location text =
      ⟨attributesOf location none pieces, stop,
        location.advance (Piece.lexemes pieces ++ stop.mark),
        (Piece.lexemes pieces ++ stop.mark).length⟩ := by
  unfold ofText
  rw [reads.tagPieces_eq, ofPieces_append reads.goesOn, ofPieces_stop starts]
  simp [after, attributesOf, Location.advance_append]

/-! ## Names and values -/

/-- What a token completes without regard to places; the open attribute is known by its name and
whether it awaits its value. -/
def entryStep (pending : Option (Text × Bool)) (token : Token) :
    List Entry × Option (Text × Bool) :=
  match token, pending with
  | .equals, _ => ([], pending.map fun waiting => (waiting.1, true))
  | _, some (name, awaits) =>
      match token.value?, awaits, token with
      | some written, true, _ => ([(Name.ofText name, Reference.decode written)], none)
      | _, _, .name written => ([(Name.ofText name, [])], some (written, false))
      | _, _, _ => ([], some (name, awaits))
  | .name written, none => ([], some (written, false))
  | _, none => ([], none)

/-- What pieces complete without regard to places, and the attribute open behind them. -/
def entryRun (pending : Option (Text × Bool)) : List Piece → List Entry × Option (Text × Bool)
  | [] => ([], pending)
  | .token token _ :: rest =>
      let here := entryStep pending token
      let later := entryRun here.2 rest
      (here.1 ++ later.1, later.2)
  | _ :: rest => entryRun pending rest

/-- The entry of an attribute that is left open, if there is one. -/
def bareEntry (pending : Option (Text × Bool)) : List Entry :=
  (pending.map fun waiting => (Name.ofText waiting.1, [])).toList

/-- The names and values that the pieces of a tag give. -/
def entries (pending : Option (Text × Bool)) (pieces : List Piece) : List Entry :=
  (entryRun pending pieces).1 ++ bareEntry (entryRun pending pieces).2

/-- An open attribute without its place. -/
def state (pending : Option OpenAttribute) : Option (Text × Bool) :=
  pending.map fun waiting => (waiting.name, waiting.awaitsValue)

theorem step_entry (pending : Option OpenAttribute) (token : Token) (first last : Location) :
    ((step pending token first last).1.map Attribute.entry,
      state (step pending token first last).2) = entryStep (state pending) token := by
  cases pending with
  | none => cases token <;> rfl
  | some waiting =>
      obtain ⟨name, begins, ends, awaits⟩ := waiting
      cases token <;> cases awaits <;> rfl

theorem run_entry (location : Location) (pending : Option OpenAttribute) (pieces : List Piece) :
    ((run location pending pieces).1.map Attribute.entry, state (run location pending pieces).2) =
      entryRun (state pending) pieces := by
  induction pieces generalizing location pending with
  | nil => rfl
  | cons piece pieces ih =>
      cases piece with
      | token token lexeme =>
          have here := step_entry pending token location (location.advance lexeme)
          have later := ih (location.advance lexeme)
            (step pending token location (location.advance lexeme)).2
          simp only [entryRun, ← here, ← later]
          simp [run, pieceStep, Piece.lexeme]
      | layout char => exact ih _ pending
      | junk lexeme => exact ih _ pending

/-- The names and values of a tag do not depend on where it stands. -/
theorem attributesOf_entry (location : Location) (pending : Option OpenAttribute)
    (pieces : List Piece) :
    (attributesOf location pending pieces).map Attribute.entry =
      entries (state pending) pieces := by
  rw [entries, ← run_entry location pending pieces, attributesOf, List.map_append]
  cases (run location pending pieces).2 <;> rfl

theorem entryRun_append (pending : Option (Text × Bool)) (first second : List Piece) :
    entryRun pending (first ++ second) =
      ((entryRun pending first).1 ++ (entryRun (entryRun pending first).2 second).1,
        (entryRun (entryRun pending first).2 second).2) := by
  induction first generalizing pending with
  | nil => rfl
  | cons piece first ih => cases piece <;> simp [entryRun, ih]

theorem entries_append (pending : Option (Text × Bool)) (first second : List Piece) :
    entries pending (first ++ second) =
      (entryRun pending first).1 ++ entries (entryRun pending first).2 second := by
  simp [entries, entryRun_append]

/-! ## The pieces of one attribute -/

/--
An open attribute is completed by the pieces up to its value, or without any
piece; what follows is read as if nothing had been open.
-/
structure Completes (location : Location) (waiting : OpenAttribute) (pieces own others : List Piece)
    (value : Text) (last : Location) : Prop where
  pieces_eq : pieces = own ++ others
  attributes_eq : attributesOf location (some waiting) pieces =
    ⟨Name.ofText waiting.name, value, ⟨waiting.first, last⟩⟩ ::
      attributesOf (location.advance (Piece.lexemes own)) none others
  last_eq : (own = [] ∧ last = waiting.last) ∨ last = location.advance (Piece.lexemes own)

/-- A piece that completes nothing leaves the open attribute to the pieces behind it. -/
theorem Completes.cons {location last : Location} {waiting waiting' : OpenAttribute}
    {piece : Piece} {pieces own others : List Piece} {value : Text}
    (completes : Completes (location.advance piece.lexeme) waiting' pieces own others value last)
    (here : pieceStep (some waiting) piece location = ([], some waiting'))
    (without : pieceStep none piece location = ([], none)) (name : waiting'.name = waiting.name)
    (first : waiting'.first = waiting.first) (same : waiting'.last = waiting.last) :
    ∃ own' others', Completes location waiting (piece :: pieces) own' others' value last := by
  obtain ⟨shape, completed, place⟩ := completes
  rw [name, first] at completed
  rcases place with ⟨rfl, rfl⟩ | place
  · refine ⟨[], piece :: pieces, rfl, ?_, .inl ⟨rfl, same⟩⟩
    rw [attributesOf_cons, here, Piece.lexemes_nil, Location.advance_nil,
      attributesOf_cons location none, without]
    rw [List.nil_append] at shape
    subst shape
    simpa using completed
  · refine ⟨piece :: own, others, by rw [shape]; rfl, ?_, .inr ?_⟩
    · rw [attributesOf_cons, here, Piece.lexemes_cons, Location.advance_append]
      simpa using completed
    · rw [place, Piece.lexemes_cons, Location.advance_append]

/-- A value completes the open attribute. -/
theorem completes_of_value {location : Location} {waiting : OpenAttribute} {token : Token}
    {lexeme written : Text} (here : pieceStep (some waiting) (.token token lexeme) location =
      ([waiting.withValue written (location.advance lexeme)], none)) (pieces : List Piece) :
    Completes location waiting (.token token lexeme :: pieces) [.token token lexeme] pieces
      (Reference.decode written) (location.advance lexeme) := by
  refine ⟨rfl, ?_, .inr ?_⟩
  · rw [attributesOf_cons, here]
    simp [OpenAttribute.withValue, Piece.lexeme]
  · simp [Piece.lexeme]

/-- Every open attribute is completed. -/
theorem exists_completes (location : Location) (waiting : OpenAttribute) (pieces : List Piece) :
    ∃ own others value last, Completes location waiting pieces own others value last := by
  induction pieces generalizing location waiting with
  | nil => exact ⟨[], [], [], waiting.last, rfl, rfl, .inl ⟨rfl, rfl⟩⟩
  | cons piece pieces ih =>
      have passed : ∀ waiting' : OpenAttribute, waiting'.name = waiting.name →
          waiting'.first = waiting.first → waiting'.last = waiting.last →
          pieceStep (some waiting) piece location = ([], some waiting') →
          pieceStep none piece location = ([], none) →
          ∃ own others value last,
            Completes location waiting (piece :: pieces) own others value last := by
        intro waiting' name first same here without
        obtain ⟨_, _, value, last, completes⟩ := ih (location.advance piece.lexeme) waiting'
        obtain ⟨own, others, whole⟩ := completes.cons here without name first same
        exact ⟨own, others, value, last, whole⟩
      obtain ⟨name, begins, ends, awaits⟩ := waiting
      cases piece with
      | layout char => exact passed _ rfl rfl rfl rfl rfl
      | junk lexeme => exact passed _ rfl rfl rfl rfl rfl
      | token token lexeme =>
          cases awaits with
          | true =>
              cases token with
              | name written => exact ⟨_, _, _, _, @completes_of_value _ _ _ _ written rfl _⟩
              | doubleQuoted content =>
                  exact ⟨_, _, _, _, @completes_of_value _ _ _ _ content rfl _⟩
              | singleQuoted content =>
                  exact ⟨_, _, _, _, @completes_of_value _ _ _ _ content rfl _⟩
              | bare content => exact ⟨_, _, _, _, @completes_of_value _ _ _ _ content rfl _⟩
              | _ => exact passed _ rfl rfl rfl rfl rfl
          | false =>
              cases token with
              | name written => exact ⟨[], _, [], ends, rfl, rfl, .inl ⟨rfl, rfl⟩⟩
              | equals => exact passed ⟨name, begins, ends, true⟩ rfl rfl rfl rfl rfl
              | _ => exact passed _ rfl rfl rfl rfl rfl

/-- Whether an attribute is open and awaits its value. -/
def awaits (pending : Option OpenAttribute) : Bool := pending.any (·.awaitsValue)

/-- A piece goes on with the open attribute, completes it with a value, or names another one. -/
theorem pieceStep_cases (pending : Option OpenAttribute) (piece : Piece) (location : Location) :
    (∃ next, pieceStep pending piece location = ([], next) ∧ next.isSome = pending.isSome) ∨
      (∃ completed, pending.isSome = true ∧
        pieceStep pending piece location = ([completed], none)) ∨
      ∃ written lexeme, piece = .token (.name written) lexeme ∧ awaits pending = false ∧
        pieceStep pending piece location =
          ((pending.map (·.bare)).toList,
            some ⟨written, location, location.advance lexeme, false⟩) := by
  cases piece with
  | layout char => exact .inl ⟨pending, rfl, rfl⟩
  | junk lexeme => exact .inl ⟨pending, rfl, rfl⟩
  | token token lexeme =>
      cases pending with
      | none =>
          cases token with
          | name written => exact .inr (.inr ⟨written, lexeme, rfl, rfl, rfl⟩)
          | _ => exact .inl ⟨none, rfl, rfl⟩
      | some waiting =>
          obtain ⟨name, begins, ends, awaited⟩ := waiting
          cases awaited with
          | true =>
              cases token with
              | name written => exact .inr (.inl ⟨_, rfl, rfl⟩)
              | doubleQuoted content => exact .inr (.inl ⟨_, rfl, rfl⟩)
              | singleQuoted content => exact .inr (.inl ⟨_, rfl, rfl⟩)
              | bare content => exact .inr (.inl ⟨_, rfl, rfl⟩)
              | _ => exact .inl ⟨_, rfl, rfl⟩
          | false =>
              cases token with
              | name written => exact .inr (.inr ⟨written, lexeme, rfl, rfl, rfl⟩)
              | _ => exact .inl ⟨_, rfl, rfl⟩

/-- Where an attribute stands among the pieces of its tag. -/
structure Spans (location : Location) (pending : Option OpenAttribute) (pieces : List Piece)
    (before : List Attribute) (target : Attribute) (after : List Attribute)
    (former own latter : List Piece) (written lexeme : Text) : Prop where
  pieces_eq : pieces = former ++ .token (.name written) lexeme :: (own ++ latter)
  settled : awaits (run location pending former).2 = false
  before_eq : before = attributesOf location pending former
  name_eq : target.name = Name.ofText written
  region_eq : target.region =
    ⟨location.advance (Piece.lexemes former),
      location.advance (Piece.lexemes (former ++ .token (.name written) lexeme :: own))⟩
  after_eq : after =
    attributesOf (location.advance
      (Piece.lexemes (former ++ .token (.name written) lexeme :: own))) none latter

/-- No attribute awaits its value where a run has settled. -/
theorem entryRun_settled {location : Location} {former : List Piece}
    (settled : awaits (run location none former).2 = false) :
    (entryRun none former).2.any (·.2) = false := by
  have same : state (run location none former).2 = (entryRun none former).2 :=
    congrArg Prod.snd (run_entry location none former)
  rw [← same]
  unfold awaits at settled
  cases waits : (run location none former).2 with
  | none => rfl
  | some waiting =>
      rw [waits] at settled
      exact settled

/-- One more piece in front of an attribute. -/
theorem Spans.cons {location : Location} (pending : Option OpenAttribute) (piece : Piece)
    {pieces former own latter : List Piece} {before after : List Attribute} {target : Attribute}
    {written lexeme : Text}
    (spans : Spans (location.advance piece.lexeme) (pieceStep pending piece location).2 pieces
      before target after former own latter written lexeme) :
    Spans location pending (piece :: pieces) ((pieceStep pending piece location).1 ++ before)
      target after (piece :: former) own latter written lexeme where
  pieces_eq := by rw [spans.pieces_eq]; rfl
  settled := spans.settled
  before_eq := by rw [spans.before_eq, attributesOf_cons]
  name_eq := spans.name_eq
  region_eq := by
    rw [spans.region_eq]
    simp [Location.advance_append]
  after_eq := by
    rw [spans.after_eq]
    simp [Location.advance_append]

/-- A name that no attribute awaits is where an attribute begins. -/
theorem exists_spans_of_name {location : Location} {pending : Option OpenAttribute}
    {written lexeme : Text} {pieces : List Piece} {after : List Attribute} {target : Attribute}
    (settled : awaits pending = false)
    (attributes : attributesOf (location.advance lexeme)
      (some ⟨written, location, location.advance lexeme, false⟩) pieces = target :: after) :
    ∃ own latter, Spans location pending (.token (.name written) lexeme :: pieces)
      (pending.map (·.bare)).toList target after [] own latter written lexeme := by
  obtain ⟨own, latter, value, last, shape, completed, place⟩ := exists_completes
    (location.advance lexeme) ⟨written, location, location.advance lexeme, false⟩ pieces
  rw [completed] at attributes
  obtain ⟨rfl, rfl⟩ := List.cons.inj attributes
  have lastEq : last = location.advance (lexeme ++ Piece.lexemes own) := by
    rw [Location.advance_append]
    rcases place with ⟨rfl, rfl⟩ | place
    · rfl
    · exact place
  refine ⟨own, latter, ?_, settled, ?_, rfl, ?_, ?_⟩
  · rw [shape]
    rfl
  · simp [attributesOf, run]
  · rw [lastEq]
    rfl
  · rw [List.nil_append, Piece.lexemes_cons, Location.advance_append]
    rfl

/-- An attribute comes from the open one, or from a name among the pieces. -/
theorem attributesOf_split {pieces : List Piece} {location : Location}
    {pending : Option OpenAttribute} {before after : List Attribute} {target : Attribute}
    (attributes : attributesOf location pending pieces = before ++ target :: after) :
    (pending.isSome = true ∧ before = []) ∨
      ∃ former own latter written lexeme,
        Spans location pending pieces before target after former own latter written lexeme := by
  induction pieces generalizing location pending before with
  | nil =>
      left
      cases pending with
      | none => simp [attributesOf, run] at attributes
      | some waiting =>
          simp only [attributesOf, run, List.nil_append, Option.map_some, Option.toList_some]
            at attributes
          rcases List.singleton_eq_append_iff.mp attributes with ⟨nothing, _⟩ | ⟨_, impossible⟩
          · exact ⟨rfl, nothing⟩
          · cases impossible
  | cons piece pieces ih =>
      rw [attributesOf_cons] at attributes
      -- What stands behind the piece stands in the whole as well.
      have lifted : ∀ {before' former own latter written lexeme},
          Spans (location.advance piece.lexeme) (pieceStep pending piece location).2 pieces before'
            target after former own latter written lexeme →
          ∃ former own latter written lexeme, Spans location pending (piece :: pieces)
            ((pieceStep pending piece location).1 ++ before') target after former own latter
            written lexeme :=
        fun spans => ⟨_, _, _, _, _, Spans.cons pending piece spans⟩
      rcases pieceStep_cases pending piece location with
        ⟨next, here, same⟩ | ⟨completed, open', here⟩ | ⟨written, lexeme, rfl, settled, here⟩
      · -- Nothing is completed here.
        rw [here] at attributes lifted
        rcases ih attributes with ⟨waits, nothing⟩ | ⟨_, _, _, _, _, spans⟩
        · exact .inl ⟨same ▸ waits, nothing⟩
        · exact .inr (lifted spans)
      · -- The open attribute gets its value.
        rw [here] at attributes lifted
        cases before with
        | nil => exact .inl ⟨open', rfl⟩
        | cons head before =>
            obtain ⟨rfl, later⟩ := List.cons.inj attributes
            rcases ih later with ⟨waits, _⟩ | ⟨_, _, _, _, _, spans⟩
            · cases waits
            · exact .inr (lifted spans)
      · -- Another attribute begins; the open one is completed without a value.
        have begins : ∀ before', attributesOf (location.advance lexeme)
              (some ⟨written, location, location.advance lexeme, false⟩) pieces =
                before' ++ target :: after →
            ∃ former own latter written' lexeme',
              Spans location pending (.token (.name written) lexeme :: pieces)
                ((pending.map (·.bare)).toList ++ before') target after former own latter
                written' lexeme' := by
          intro before' later
          rcases ih later with ⟨_, rfl⟩ | ⟨_, _, _, _, _, spans⟩
          · obtain ⟨own, latter, whole⟩ := exists_spans_of_name settled later
            rw [List.append_nil]
            exact ⟨_, _, _, _, _, whole⟩
          · rw [here] at lifted
            exact lifted spans
        rw [here] at attributes
        cases pending with
        | none => exact .inr (begins before attributes)
        | some waiting =>
            cases before with
            | nil => exact .inl ⟨rfl, rfl⟩
            | cons head before =>
                obtain ⟨rfl, later⟩ := List.cons.inj attributes
                exact .inr (begins before later)

/-- Every attribute of a tag stands somewhere among its pieces. -/
theorem exists_span {pieces : List Piece} {location : Location}
    {before after : List Attribute} {target : Attribute}
    (attributes : attributesOf location none pieces = before ++ target :: after) :
    ∃ former own latter written lexeme,
      Spans location none pieces before target after former own latter written lexeme := by
  rcases attributesOf_split attributes with ⟨waits, _⟩ | spans
  · cases waits
  · exact spans

end TagBody

end PageDesigner
