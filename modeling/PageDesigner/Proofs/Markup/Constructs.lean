import PageDesigner.Proofs.Markup.Locality

/-!
# The construct that brings an event

Each event of a text is brought by a construct, behind a beginning of whole constructs
(`exists_construct`).  An opening tag comes from a construct that starts with a name, so each
opening tag of a text is found behind a beginning of whole constructs, with exactly the
opening tags before it (`exists_opening`).
-/

namespace PageDesigner

/-- An entry of a flattened list comes from one of its parts. -/
theorem exists_of_flatMap {α β : Type} {part : α → List β} {list : List α} {before after : List β}
    {entry : β} (split : list.flatMap part = before ++ entry :: after) :
    ∃ earlier origin later former latter, list = earlier ++ origin :: later ∧
      part origin = former ++ entry :: latter ∧ before = earlier.flatMap part ++ former ∧
      after = latter ++ later.flatMap part := by
  induction list generalizing before with
  | nil => simp at split
  | cons head rest ih =>
      rw [List.flatMap_cons] at split
      have further : ∀ middle, rest.flatMap part = middle ++ entry :: after →
          before = part head ++ middle → ∃ earlier origin later former latter,
          head :: rest = earlier ++ origin :: later ∧ part origin = former ++ entry :: latter ∧
          before = earlier.flatMap part ++ former ∧ after = latter ++ later.flatMap part := by
        rintro middle behind rfl
        obtain ⟨earlier, origin, later, former, latter, rfl, own, rfl, rfl⟩ := ih behind
        exact ⟨head :: earlier, origin, later, former, latter, rfl, own, by simp, rfl⟩
      rcases List.append_eq_append_iff.mp split with
        ⟨middle, front, behind⟩ | ⟨middle, own, behind⟩
      · exact further middle behind front
      · cases middle with
        | nil => exact further [] behind.symm (by simpa using own.symm)
        | cons first latter =>
            obtain ⟨rfl, rfl⟩ := List.cons.inj behind
            exact ⟨[], head, rest, before, latter, rfl, own, rfl, rfl⟩

namespace Event

/-! ## Constructs -/

/-- The beginning of a text, construct by construct: every construct of it ends in front of the
`<` that stands behind the beginning. -/
inductive Begins : Location → Text → List Event → Prop
  | nil (location : Location) : Begins location [] []
  | plain {location : Location} {char : Char} {front : Text} {events : List Event}
      (plain : char ≠ '<') (later : Begins (location.next char) front events) :
      Begins location (char :: front) events
  | construct {location : Location} {part front rest : Text} {found events : List Event}
      (here : construct location (part ++ (front ++ '<' :: rest)) = (found, part.length))
      (later : Begins ((location.next '<').advance part) front events) :
      Begins location ('<' :: (part ++ front)) (found ++ events)

theorem Begins.settled {location : Location} {front : Text} {events : List Event}
    (begins : Begins location front events) : Settled location front events := by
  induction begins with
  | nil location => exact .nil location
  | plain plain _ ih => exact ih.plain plain
  | @construct location part front rest found events here _ ih =>
      rw [← List.append_assoc] at here
      refine .construct (by simp) here ?_
      rw [List.take_left, List.drop_left]
      exact ih

/-- The text behind a `<`, with the construct there and what begins behind it. -/
theorem Begins.behind {location : Location} {rest front rest' : Text} {events : List Event}
    (shape : rest.drop (Event.construct location rest).2 = front ++ '<' :: rest')
    (begins : Begins ((location.next '<').advance (rest.take (Event.construct location rest).2))
      front events) :
    Begins location ('<' :: (rest.take (Event.construct location rest).2 ++ front))
      ((Event.construct location rest).1 ++ events) := by
  have inside : (Event.construct location rest).2 < rest.length := by
    have longer := congrArg List.length shape
    simp only [List.length_drop, List.length_append, List.length_cons] at longer
    omega
  refine @Begins.construct _ _ _ rest' _ _ ?_ begins
  rw [← shape, List.take_append_drop, List.length_take,
    Nat.min_eq_left (Nat.le_of_lt inside)]

/-- The construct that brings an event of a text, and the beginning in front of it. -/
structure BroughtAt (location : Location) (text : Text) (before : List Event) (event : Event)
    (after : List Event) (front rest : Text) (early former latter : List Event) : Prop where
  text_eq : text = front ++ '<' :: rest
  begins : Begins location front early
  brings : (construct (location.advance front) rest).1 = former ++ event :: latter
  before_eq : before = early ++ former
  after_eq : after = latter ++ eventsFrom
    (location.advance (front ++ '<' :: rest.take (construct (location.advance front) rest).2)) 0
    (rest.drop (construct (location.advance front) rest).2)

theorem BroughtAt.behind {location : Location} {rest front rest' : Text}
    {before after early former latter : List Event} {event : Event}
    (brought : BroughtAt ((location.next '<').advance (rest.take (construct location rest).2))
      (rest.drop (construct location rest).2) before event after front rest' early former latter) :
    BroughtAt location ('<' :: rest) ((construct location rest).1 ++ before) event after
      ('<' :: (rest.take (construct location rest).2 ++ front)) rest'
      ((construct location rest).1 ++ early) former latter := by
  obtain ⟨shape, begins, brings, beforeEq, afterEq⟩ := brought
  have reached : ((location.next '<').advance (rest.take (construct location rest).2)).advance
      front = location.advance ('<' :: (rest.take (construct location rest).2 ++ front)) := by
    rw [Location.advance_cons, Location.advance_append]
  refine ⟨?_, begins.behind shape, ?_, by rw [beforeEq, List.append_assoc], ?_⟩
  · rw [List.cons_append, List.append_assoc, ← shape, List.take_append_drop]
  · rw [← reached]
    exact brings
  · rw [reached, Location.advance_append, reached, ← Location.advance_append] at afterEq
    exact afterEq

/-- Every event of a text is brought by a construct. -/
theorem exists_construct {location : Location} {text : Text} {before after : List Event}
    {event : Event} (found : eventsFrom location 0 text = before ++ event :: after) :
    ∃ front rest early former latter,
      BroughtAt location text before event after front rest early former latter := by
  induction hlength : text.length using Nat.strongRecOn generalizing location text before with
  | _ length ih =>
      cases text with
      | nil => simp [eventsFrom] at found
      | cons char rest =>
          by_cases plain : char = '<'
          · subst plain
            rw [eventsFrom_construct] at found
            -- The event is brought behind this construct, unless this construct brings it.
            have later : ∀ before',
                eventsFrom (location.next '<') (construct location rest).2 rest =
                  before' ++ event :: after →
                ∃ front rest' early former latter, BroughtAt location ('<' :: rest)
                  ((construct location rest).1 ++ before') event after front rest' early former
                  latter := by
              intro before' behind
              rw [eventsFrom_skip] at behind
              have shorter : (rest.drop (construct location rest).2).length < length := by
                rw [← hlength, List.length_drop, List.length_cons]
                omega
              obtain ⟨_, _, _, _, _, brought⟩ := ih _ shorter behind rfl
              exact ⟨_, _, _, _, _, brought.behind⟩
            rcases List.append_eq_append_iff.mp found with
              ⟨before', rfl, behind⟩ | ⟨others, here, behind⟩
            · exact later before' behind
            · cases others with
              | nil =>
                  rw [List.append_nil] at here
                  rw [← here]
                  have brought := later [] behind.symm
                  rw [List.append_nil] at brought
                  exact brought
              | cons head others =>
                  obtain ⟨rfl, rfl⟩ := List.cons.inj behind
                  refine ⟨[], rest, [], before, others, rfl, .nil location, here, rfl, ?_⟩
                  rw [eventsFrom_skip, List.nil_append, Location.advance_cons]
                  rfl
          · rw [eventsFrom_plain plain] at found
            obtain ⟨front, rest', early, former, latter, shape, begins, brings, beforeEq,
              afterEq⟩ := ih rest.length (by rw [← hlength]; simp) found rfl
            refine ⟨char :: front, rest', early, former, latter, ?_, begins.plain plain, brings,
              beforeEq, afterEq⟩
            rw [shape]
            rfl

/-! ## Opening tags -/

/-- Only an opening tag brings opening tags. -/
theorem BroughtAt.named {location : Location} {text front rest : Text}
    {before after early former latter : List Event} {event : Event}
    (brought : BroughtAt location text before event after front rest early former latter)
    (opens : event.openings ≠ []) : rest.head?.any startsTagName = true := by
  rcases openings_construct (location.advance front) rest with none' | named
  · rw [brought.brings, List.flatMap_append, List.flatMap_cons] at none'
    exact absurd (List.append_eq_nil_iff.mp (List.append_eq_nil_iff.mp none').2).1 opens
  · exact named

/--
An opening tag of a text stands behind a beginning of whole constructs, which brings the
opening tags in front of it; what follows brings those behind it.
-/
structure OpensAt (location : Location) (text : Text) (before : List Opening) (opening : Opening)
    (after : List Opening) (front rest : Text) (events : List Event) : Prop where
  text_eq : text = front ++ '<' :: rest
  begins : Begins location front events
  before_eq : events.flatMap openings = before
  named : rest.head?.any startsTagName = true
  opening_eq : opening =
    (tagAt (location.advance front) rest, isWholeAt (location.advance front) rest)
  after_eq : (eventsFrom (location.advance (front ++ ['<']))
    (openingTag (location.advance front) rest).2 rest).flatMap openings = after

/-- Every opening tag of a text stands behind a beginning of whole constructs. -/
theorem exists_opening {location : Location} {text : Text} {before after : List Opening}
    {opening : Opening}
    (found : (eventsFrom location 0 text).flatMap openings = before ++ opening :: after) :
    ∃ front rest events, OpensAt location text before opening after front rest events := by
  obtain ⟨earlier, event, later, first, last, split, own, rfl, rfl⟩ := exists_of_flatMap found
  obtain ⟨front, rest, early, former, latter, brought⟩ := exists_construct split
  have named := brought.named (by rw [own]; simp)
  have single := openings_openingTag (location.advance front) rest
  rw [← construct_of_name named, brought.brings, List.flatMap_append, List.flatMap_cons, own]
    at single
  -- The construct brings one opening tag, so nothing stands beside it.
  have lengths := congrArg List.length single
  simp only [List.length_append, List.length_cons, List.length_nil] at lengths
  have former' := List.eq_nil_of_length_eq_zero
    (show (former.flatMap openings).length = 0 by omega)
  have latter' := List.eq_nil_of_length_eq_zero
    (show (latter.flatMap openings).length = 0 by omega)
  obtain rfl := List.eq_nil_of_length_eq_zero (show first.length = 0 by omega)
  obtain rfl := List.eq_nil_of_length_eq_zero (show last.length = 0 by omega)
  rw [former', latter'] at single
  refine ⟨front, rest, early, brought.text_eq, brought.begins, ?_, named,
    (List.cons.inj single).1, ?_⟩
  · rw [brought.before_eq, List.flatMap_append, former', List.append_nil, List.append_nil]
  · have reached : ∀ part, (location.advance (front ++ ['<'])).advance part =
        location.advance (front ++ '<' :: part) := by
      intro part
      rw [← Location.advance_append, List.append_assoc]
      rfl
    rw [← construct_of_name named, brought.after_eq, List.flatMap_append, latter',
      eventsFrom_skip, reached]
    rfl

end Event

end PageDesigner
