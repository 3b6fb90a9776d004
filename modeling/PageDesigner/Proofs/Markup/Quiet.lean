import PageDesigner.Proofs.Markup.Stated

/-!
# Text that holds no construct

What stands between the tags of a page is plain text, marks `<` that start nothing, and
closing tags that close nothing.  Such text is `Quiet` in front of a `<`, and `Calm` if
nothing behind it can make a construct of its end: then it is read alike wherever it
stands (`Quiet.reads`).
-/

namespace PageDesigner

namespace Event

/-- Whether a `<` in front of the text starts a construct. -/
def startsConstruct : Text → Bool
  | [] => false
  | char :: rest =>
      char == '%' || char == '!' || startsTagName char ||
        (char == '/' && rest.head?.any startsTagName)

/-- A `<` behind a text does not make a construct of what did not start one. -/
theorem startsConstruct_append (front rest : Text) :
    startsConstruct (front ++ '<' :: rest) = startsConstruct (front ++ ['<']) := by
  cases front with
  | nil => rfl
  | cons first front => cases front <;> rfl

/-- Two characters decide whether a construct starts, and the first one alone unless it is `/`. -/
theorem startsConstruct_congr {front : Text} (some' : front ≠ []) (open' : front ≠ ['/'])
    (rest rest' : Text) : startsConstruct (front ++ rest) = startsConstruct (front ++ rest') := by
  cases front with
  | nil => exact absurd rfl some'
  | cons first front =>
      cases front with
      | nil =>
          have differs : (first == '/') = false := by
            rw [beq_eq_false_iff_ne]
            rintro rfl
            exact open' rfl
          simp [startsConstruct, differs]
      | cons second front => rfl

/-- A `<` that starts nothing takes nothing. -/
theorem construct_of_not_starts {text : Text} (dead : startsConstruct text = false)
    (first : Location) : construct first text = ([], 0) := by
  cases text with
  | nil => rfl
  | cons char rest =>
      simp only [startsConstruct, Bool.or_eq_false_iff, Bool.and_eq_false_iff, beq_eq_false_iff_ne]
        at dead
      obtain ⟨⟨⟨percent, exclamation⟩, unnamed⟩, closing⟩ := dead
      rw [construct_unmarked (Ne.symm percent) (Ne.symm exclamation), if_neg, if_neg]
      · simp [unnamed]
      · rintro ⟨slash, named⟩
        rcases closing with other | other
        · exact other slash
        · rw [named] at other
          cases other

end Event

/-! ## Quiet text -/

open Event (startsConstruct Sealed)

/-- Text that brings nothing but closing tags when it stands in front of a `<`. -/
inductive Quiet : Text → Prop
  | nil : Quiet []
  | plain {char : Char} {text : Text} (plain : char ≠ '<') (later : Quiet text) :
      Quiet (char :: text)
  | dead {text : Text} (dead : startsConstruct (text ++ ['<']) = false) (later : Quiet text) :
      Quiet ('<' :: text)
  | closing {inner text : Text} (named : inner.head?.any startsTagName = true)
      (inside : '>' ∉ inner) (later : Quiet text) :
      Quiet ('<' :: '/' :: (inner ++ '>' :: text))

/-- No `<` and no `</` at the end of the text waits for what follows. -/
structure Ended (text : Text) : Prop where
  started : ¬ ['<'] <:+ text
  closing : ¬ ['<', '/'] <:+ text

/-- Nothing comes of the end of a text in front of another. -/
def Apart (text rest : Text) : Prop := rest.head? = some '<' ∨ Ended text

/-- Quiet text of whose end nothing can come. -/
structure Calm (text : Text) : Prop where
  quiet : Quiet text
  ended : Ended text

theorem Ended.of_suffix {part text : Text} (ended : Ended text) (suffix : part <:+ text) :
    Ended part :=
  ⟨fun mark => ended.started (mark.trans suffix), fun mark => ended.closing (mark.trans suffix)⟩

theorem Apart.of_suffix {part text rest : Text} (apart : Apart text rest) (suffix : part <:+ text) :
    Apart part rest :=
  apart.imp_right (·.of_suffix suffix)

/-- A text that ends in another character than `<` and `/`. -/
theorem ended_concat {char : Char} (mark : char ≠ '<') (slash : char ≠ '/') (text : Text) :
    Ended (text ++ [char]) where
  started := by
    rintro ⟨front, same⟩
    exact mark (List.singleton_inj.mp (List.append_inj' same rfl).2).symm
  closing := by
    rintro ⟨front, same⟩
    have whole : (front ++ ['<']) ++ ['/'] = text ++ [char] := by
      rw [← same]
      simp
    exact slash (List.singleton_inj.mp (List.append_inj' whole rfl).2).symm

theorem ended_nil : Ended [] :=
  ⟨fun mark => (nomatch List.suffix_nil.mp mark), fun mark => (nomatch List.suffix_nil.mp mark)⟩

/-- A dead `<` stays dead in front of whatever nothing comes of. -/
theorem not_startsConstruct_of_apart {text rest : Text}
    (dead : startsConstruct (text ++ ['<']) = false) (apart : Apart ('<' :: text) rest) :
    startsConstruct (text ++ rest) = false := by
  rcases apart with begins | ended
  · rw [Piece.head?_eq_some_cons begins, Event.startsConstruct_append]
    exact dead
  · rw [Event.startsConstruct_congr _ _ rest ['<']]
    · exact dead
    · rintro rfl
      exact ended.started (List.suffix_refl _)
    · rintro rfl
      exact ended.closing (List.suffix_refl _)

/-- An event that is a closing tag. -/
def Event.IsClosing (event : Event) : Prop := ∃ name region, event = .closed name region

namespace Quiet

/-- Quiet text is read alike wherever nothing comes of its end. -/
theorem reads {text : Text} (quiet : Quiet text) (location : Location) :
    ∃ events, (∀ event ∈ events, event.IsClosing) ∧ ∀ rest, Apart text rest →
      Event.eventsFrom location 0 (text ++ rest) =
        events ++ Event.eventsFrom (location.advance text) 0 rest := by
  induction quiet generalizing location with
  | nil => exact ⟨[], fun _ member => (nomatch member), fun _ _ => rfl⟩
  | @plain char text plain _ ih =>
      obtain ⟨events, closings, read⟩ := ih (location.next char)
      refine ⟨events, closings, fun rest apart => ?_⟩
      rw [List.cons_append, Event.eventsFrom_plain plain,
        read rest (apart.of_suffix (List.suffix_cons _ _))]
      rfl
  | @dead text dead _ ih =>
      obtain ⟨events, closings, read⟩ := ih (location.next '<')
      refine ⟨events, closings, fun rest apart => ?_⟩
      have dead' := Event.construct_of_not_starts (not_startsConstruct_of_apart dead apart) location
      rw [List.cons_append, Event.eventsFrom_construct, dead', List.nil_append,
        read rest (apart.of_suffix (List.suffix_cons _ _))]
      rfl
  | @closing inner text named inside _ ih =>
      have whole : '<' :: '/' :: (inner ++ '>' :: text) =
          ('<' :: '/' :: (inner ++ ['>'])) ++ text := by simp
      obtain ⟨events, closings, read⟩ :=
        ih (location.advance ('<' :: '/' :: (inner ++ ['>'])))
      refine ⟨.closed (inner.takeWhile continuesName)
        ⟨location, location.advance ('<' :: '/' :: (inner ++ ['>']))⟩ :: events, ?_,
        fun rest apart => ?_⟩
      · intro event member
        rcases List.mem_cons.mp member with rfl | later
        · exact ⟨_, _, rfl⟩
        · exact closings event later
      · rw [whole] at apart ⊢
        have closes := Event.sealed_closingTag named inside location (text ++ rest)
        rw [List.append_assoc, closes, read rest (apart.of_suffix (List.suffix_append _ _)),
          Location.advance_append]
        rfl

/-- Quiet texts can be joined where nothing comes of it. -/
theorem append {front back : Text} (quiet : Quiet front) (later : Quiet back)
    (apart : Apart front back) : Quiet (front ++ back) := by
  induction quiet with
  | nil => exact later
  | plain plain _ ih => exact .plain plain (ih (apart.of_suffix (List.suffix_cons _ _)))
  | @dead text dead _ ih =>
      refine .dead ?_ (ih (apart.of_suffix (List.suffix_cons _ _)))
      show startsConstruct ((text ++ back) ++ ['<']) = false
      rw [List.append_assoc]
      refine not_startsConstruct_of_apart dead (apart.imp_left fun begins => ?_)
      rw [Piece.head?_eq_some_cons begins]
      rfl
  | @closing inner text named inside _ ih =>
      have whole : '<' :: '/' :: (inner ++ '>' :: text) =
          ('<' :: '/' :: (inner ++ ['>'])) ++ text := by simp
      have joined := Quiet.closing named inside
        (ih (apart.of_suffix (by rw [whole]; exact List.suffix_append _ _)))
      simpa using joined

end Quiet

/-- What a joined text ends in is the end of one of its parts, or lies on the seam. -/
theorem suffix_append_cases {mark front back : Text} (ends : mark <:+ front ++ back) :
    mark <:+ back ∨ ∃ former, mark = former ++ back ∧ former <:+ front := by
  obtain ⟨before, same⟩ := ends
  rcases List.append_eq_append_iff.mp same with ⟨former, split, own⟩ | ⟨more, -, own⟩
  · exact .inr ⟨former, own, before, split.symm⟩
  · exact .inl ⟨more, own.symm⟩

theorem Ended.append {front back : Text} (ended : Ended front) (later : Ended back) :
    Ended (front ++ back) where
  started := by
    intro mark
    rcases suffix_append_cases mark with behind | ⟨former, split, before⟩
    · exact later.started behind
    · cases former with
      | nil => exact later.started (split ▸ List.suffix_refl _)
      | cons char former =>
          obtain ⟨rfl, none'⟩ := List.cons.inj split
          obtain ⟨rfl, -⟩ := List.append_eq_nil_iff.mp none'.symm
          exact ended.started before
  closing := by
    intro mark
    rcases suffix_append_cases mark with behind | ⟨former, split, before⟩
    · exact later.closing behind
    · rcases former with _ | ⟨char, _ | ⟨slash, former⟩⟩
      · exact later.closing (split ▸ List.suffix_refl _)
      · obtain ⟨rfl, -⟩ := List.cons.inj split
        exact ended.started before
      · obtain ⟨rfl, split'⟩ := List.cons.inj split
        obtain ⟨rfl, none'⟩ := List.cons.inj split'
        obtain ⟨rfl, -⟩ := List.append_eq_nil_iff.mp none'.symm
        exact ended.closing before

/-- A text that begins with `<` hides the end of the one in front of it. -/
theorem Ended.behind {part : Text} (ended : Ended part) (starts : part.head? = some '<')
    (gap : Text) : Ended (gap ++ part) where
  started := by
    intro mark
    rcases suffix_append_cases mark with inside | ⟨former, split, -⟩
    · exact ended.started inside
    · rw [Piece.head?_eq_some_cons starts] at split ended
      rcases List.singleton_eq_append_iff.mp split with ⟨-, own⟩ | ⟨-, own⟩
      · exact ended.started (own ▸ List.suffix_refl _)
      · cases own
  closing := by
    intro mark
    rcases suffix_append_cases mark with inside | ⟨former, split, -⟩
    · exact ended.closing inside
    · rw [Piece.head?_eq_some_cons starts] at split ended
      rcases former with _ | ⟨char, _ | ⟨slash, former⟩⟩
      · exact ended.closing (split ▸ List.suffix_refl _)
      · cases (List.cons.inj split).2
      · simp at split

theorem Quiet.calm_behind {gap part : Text} (quiet : Quiet gap) (calm : Calm part)
    (starts : part.head? = some '<') : Calm (gap ++ part) :=
  ⟨quiet.append calm.quiet (.inl starts), calm.ended.behind starts gap⟩

theorem Calm.append {front back : Text} (calm : Calm front) (later : Calm back) :
    Calm (front ++ back) :=
  ⟨calm.quiet.append later.quiet (.inr calm.ended), calm.ended.append later.ended⟩

theorem calm_nil : Calm [] := ⟨.nil, ended_nil⟩

/-- A closing tag is calm. -/
theorem calm_closing {inner : Text} (named : inner.head?.any startsTagName = true)
    (inside : '>' ∉ inner) : Calm ('<' :: '/' :: (inner ++ ['>'])) :=
  ⟨.closing named inside .nil, ended_concat (by decide) (by decide) ('<' :: '/' :: inner)⟩

end PageDesigner
