import PageDesigner.Proofs.Markup.Quiet
import PageDesigner.Proofs.Markup.RawText
import PageDesigner.Proofs.Markup.Regions

/-!
# The stretches of a text

A text is read in stretches: each event takes a part that begins with `<`, and the gaps
between these parts are quiet (`Event.Strung`).  What stands behind the last part brings
nothing.  Every text falls into such stretches (`Event.exists_strung`), and those of some
events one behind the other can be told apart again (`Event.Strung.split`).

What a part looks like depends on its event (`Event.StandsAt`).  The element of a raw
content holds no closing tag of its own, and a closing tag is complete unless it is the
last thing in the text.
-/

namespace PageDesigner

open Piece (lexemes)

/-- A single character does not stand in front of the place where it is found. -/
theorem Text.not_mem_of_cut? {char : Char} {text content behind : Text}
    (found : Text.cut? [char] text = some (content, behind)) : char ∉ content := by
  induction text generalizing content with
  | nil => cases found
  | cons head rest ih =>
      unfold Text.cut? at found
      split at found
      · obtain ⟨rfl, -⟩ := Prod.mk.inj (Option.some.inj found)
        exact List.not_mem_nil
      · next differs =>
          obtain ⟨⟨later, behind'⟩, cut, pair⟩ := Option.map_eq_some_iff.mp found
          obtain ⟨rfl, rfl⟩ := Prod.mk.inj pair
          have apart : char ≠ head := by
            rintro rfl
            exact differs (by simp)
          exact fun member => (List.mem_cons.mp member).elim apart (ih cut)

theorem Text.lower_take (text : Text) (count : Nat) :
    lower (text.take count) = (lower text).take count :=
  List.map_take

namespace Event

/-- What an event takes of a text in front of what stands behind. -/
inductive StandsAt (first : Location) (part behind : Text) : Event → Prop
  | other {node : Node} (other : node.element? = none)
      (region_eq : node.region = ⟨first, first.advance part⟩) :
      StandsAt first part behind (.leaf node)
  | single (tag : TagText) {ending : TagEnd} (bodiless : ending = .selfClosing ∨ ending = .void)
      (whole : part = tag.opening) :
      StandsAt first part behind (.leaf (.element (tag.tagOf first) ending []))
  | raw (tag : TagText) {content closing : Text} (raw : holdsText tag.name = true)
      (inside : Text.cut? (endMark tag.name) (content.lower ++ endMark tag.name) =
        some (content.lower, []))
      (whole : part = tag.opening ++ content ++ closing) :
      StandsAt first part behind (.leaf (.element (tag.tagOf first)
        (.closed ⟨first.advance (tag.opening ++ content), first.advance part⟩) []))
  | rest (tag : TagText) (raw : holdsText tag.name = true) (opens : tag.opening <+: part)
      (last : behind = []) :
      StandsAt first part behind (.leaf (.element (tag.tagOf first) .unterminated []))
  | opened (tag : TagText) (holds : holdsMarkup tag.name = true) (whole : part = tag.opening) :
      StandsAt first part behind (.opened (tag.tagOf first))
  | closed (name : Text) (calm : behind ≠ [] → Calm part) :
      StandsAt first part behind (.closed name ⟨first, first.advance part⟩)

/-! ## What a construct takes -/

/-- The events of a construct: reports, and then one that takes the characters of the construct. -/
inductive Yields (first : Location) (text : Text) : List Event × Nat → Prop
  | nothing (dead : startsConstruct text = false) : Yields first text ([], 0)
  | mark {reports : List Event} {event : Event} {length : Nat} (quiet : Reports reports)
      (stands : StandsAt first ('<' :: text.take length) (text.drop length) event) :
      Yields first text (reports ++ [event], length)

section

variable (first : Location) (text : Text)

theorem reports_unlessClosed (part : Enclosed) (problem : Problem) (region : Region) :
    Reports (unlessClosed part problem region) := by
  unfold unlessClosed
  split
  · exact fun _ member => nomatch member
  · exact fun _ member => ⟨_, List.mem_singleton.mp member⟩

/-- A construct that is no tag takes its region. -/
theorem yields_other {node : Node} {reports : List Event} {length : Nat}
    (quiet : Reports reports) (other : node.element? = none)
    (region_eq : node.region = regionOf first text length) :
    Yields first text (reports ++ [.leaf node], length) :=
  .mark quiet (.other other region_eq)

theorem yields_directive : Yields first text (directive first text) := by
  refine yields_other first text (reports_unlessClosed _ _ _) rfl ?_
  unfold directiveOf
  dsimp only
  split
  · rfl
  · rfl

variable {text}

/-- A closing tag is complete, unless it is the last thing in the text. -/
theorem yields_closingTag {rest : Text} (named : rest.head?.any startsTagName = true) :
    Yields first ('/' :: rest) (closingTag first ('/' :: rest)) := by
  refine @Yields.mark first ('/' :: rest) [] _ _ (fun _ member => (nomatch member))
    (.closed _ fun follows => ?_)
  unfold lengthThrough enclosed at follows ⊢
  rw [List.drop_one, List.tail_cons, Nat.add_comm, List.drop_succ_cons] at follows ⊢
  generalize split : rest.takeWhile continuesName = name at follows ⊢
  obtain ⟨more, rfl⟩ : name <+: rest := split ▸ List.takeWhile_prefix _
  rw [List.drop_left] at follows ⊢
  cases cut : Text.cut? ">" more with
  | none =>
      rw [cut] at follows
      exact absurd (List.drop_length) follows
  | some parts =>
      obtain ⟨content, behind⟩ := parts
      have shape : more = content ++ '>' :: behind := by
        rw [Text.append_of_cut? cut]
        simp
      have word : name.all continuesName = true := by
        rw [← split]
        exact List.all_takeWhile
      have absent : '>' ∉ name ++ content := fun member =>
        (List.mem_append.mp member).elim (absent_of_word word rfl) (Text.not_mem_of_cut? cut)
      have starts : (name ++ content).head?.any startsTagName = true := by
        have head := TagText.head?_takeWhile named
        rw [split] at head
        cases name with
        | nil => cases head
        | cons char name => exact head
      have taken : ('/' :: (name ++ (content ++ '>' :: behind))).take
          (name.length + 1 + content.length + 1) = '/' :: (name ++ content ++ ['>']) := by
        have whole : '/' :: (name ++ (content ++ '>' :: behind)) =
            '/' :: (name ++ content ++ ['>']) ++ behind := by simp
        rw [whole]
        exact List.take_left' (by simp; omega)
      dsimp only
      rw [shape]
      have calm := calm_closing starts absent
      rw [← taken] at calm
      exact calm

/-- A raw content holds no mark that would end it. -/
theorem yields_raw {tag : TagText} {reports : List Event} {closing : Region} {taken : Nat}
    (raw : holdsText tag.name = true) (quiet : Reports reports)
    (found : rawEnd? tag.name.base.lower (first.advance tag.opening) tag.behind =
      some (closing, taken)) :
    Yields first tag.text (reports ++ [.leaf (.element (tag.tagOf first) (.closed closing) [])],
      (tag.written ++ (lexemes tag.pieces ++ tag.stop.mark)).length + taken) := by
  unfold rawEnd? at found
  dsimp only at found
  split at found
  · cases found
  next inside behind cut =>
  obtain ⟨rfl, rfl⟩ := Prod.mk.inj (Option.some.inj found)
  rw [lower_of_holdsText raw] at cut ⊢
  obtain ⟨ending, taken⟩ : ∃ ending, tag.behind.take (lengthThrough
      (inside.length + (("</" : Text) ++ tag.name.base.lower).length) ">" tag.behind) =
        tag.behind.take inside.length ++ ending := by
    obtain ⟨more, taken⟩ := exists_take_enclosed
      (inside.length + (("</" : Text) ++ tag.name.base.lower).length) ">" tag.behind
    rw [List.take_add, List.append_assoc] at taken
    exact ⟨_, taken⟩
  have content : Text.lower (tag.behind.take inside.length) = inside := by
    rw [Text.lower_take, Text.append_of_cut? cut, List.append_assoc, List.take_left]
  generalize lengthThrough _ ">" tag.behind = length at taken ⊢
  have part : '<' :: tag.text.take
      ((tag.written ++ (lexemes tag.pieces ++ tag.stop.mark)).length + length) =
        tag.opening ++ tag.behind.take length := by
    rw [take_text, TagText.opening]
    simp
  have held : Text.cut? (endMark tag.name)
      (Text.lower (tag.behind.take inside.length) ++ endMark tag.name) =
        some (Text.lower (tag.behind.take inside.length), []) := by
    rw [content]
    exact Text.cut?_shorten cut
  rw [← Location.advance_append, ← Location.advance_append, ← part]
  exact .mark quiet (.raw tag raw held (part.trans (by rw [taken, List.append_assoc])))

theorem yields_openingTag (tag : TagText) : Yields first tag.text (openingTag first tag.text) := by
  have quiet := reports_malformed first tag
  have own := take_text tag 0
  rw [Nat.add_zero, List.take_zero, List.append_nil] at own
  have whole : '<' :: tag.text.take
      (tag.written ++ (lexemes tag.pieces ++ tag.stop.mark)).length = tag.opening := by
    rw [own]
    rfl
  rw [openingTag_text]
  split
  · exact .mark quiet (.single tag (.inl rfl) whole)
  split
  · exact .mark quiet (.single tag (.inr rfl) whole)
  split
  · next raw =>
      split
      · next closing taken found =>
          exact yields_raw first raw quiet found
      · rw [List.append_cons]
        refine .mark (quiet.append ?_) (.rest tag raw ?_ ?_)
        · exact fun _ member => ⟨_, List.mem_singleton.mp member⟩
        · rw [List.take_length, TagText.text_eq_opening]
          exact List.prefix_append _ _
        · exact List.drop_length
  · next notVoid notRaw =>
      refine .mark quiet (.opened tag ?_ whole)
      unfold holdsMarkup
      cases qualified : tag.name.isQualified with
      | true => rfl
      | false =>
          rw [qualified] at notVoid notRaw
          simpa using ⟨by simpa using notVoid, by simpa using notRaw⟩

theorem yields_construct (text : Text) : Yields first text (construct first text) := by
  by_cases named : text.head?.any startsTagName = true
  · obtain ⟨tag, rfl⟩ := TagText.exists_tagText named
    rw [construct_of_name named]
    exact yields_openingTag first tag
  by_cases dead : startsConstruct text = false
  · rw [construct_of_not_starts dead]
    exact .nothing dead
  cases text with
  | nil => exact absurd rfl dead
  | cons char rest =>
      by_cases percent : '%' = char
      · subst percent
        rw [construct_percent]
        split
        · exact yields_other first _ (reports_unlessClosed _ _ _) rfl rfl
        split
        · exact yields_directive first _
        · exact yields_other first _ (reports_unlessClosed _ _ _) rfl rfl
      by_cases exclamation : '!' = char
      · subst exclamation
        rw [construct_exclamation]
        split
        · exact yields_other first _ (reports_unlessClosed _ _ _) rfl rfl
        · exact @yields_other first _ _ [] _ (fun _ member => nomatch member) rfl rfl
      rw [construct_unmarked percent exclamation]
      split
      · next closing =>
          obtain ⟨rfl, named'⟩ := closing
          exact yields_closingTag first named'
      · next notClosing =>
          refine absurd ?_ dead
          have unnamed : startsTagName char = false := Bool.eq_false_iff.mpr named
          simpa [startsConstruct, unnamed, Ne.symm percent, Ne.symm exclamation] using notClosing

end

/-! ## Stretches -/

/-- The events take the text in stretches, each behind a quiet gap. -/
inductive Strung : Location → Text → Text → List Event → Prop
  | nil (location : Location) (behind : Text) : Strung location [] behind []
  | problem {location : Location} {text behind : Text} {events : List Event}
      (diagnostic : Diagnostic) (later : Strung location text behind events) :
      Strung location text behind (.problem diagnostic :: events)
  | mark {location : Location} {gap part text behind : Text} {event : Event} {events : List Event}
      (quiet : Quiet gap) (starts : part.head? = some '<')
      (stands : StandsAt (location.advance gap) part (text ++ behind) event)
      (later : Strung (location.advance (gap ++ part)) text behind events) :
      Strung location (gap ++ (part ++ text)) behind (event :: events)

namespace Strung

variable {location : Location} {text behind : Text} {events later : List Event}

theorem reports {reports : List Event} (quiet : Reports reports)
    (strung : Strung location text behind events) :
    Strung location text behind (reports ++ events) := by
  induction reports with
  | nil => exact strung
  | cons report reports ih =>
      obtain ⟨diagnostic, rfl⟩ := quiet report List.mem_cons_self
      exact .problem diagnostic (ih fun event member => quiet event (List.mem_cons_of_mem _ member))

/-- The stretches of some events stand in front of those of the events behind them. -/
theorem split (strung : Strung location text behind (events ++ later)) :
    ∃ front back, text = front ++ back ∧ Strung location front (back ++ behind) events ∧
      Strung (location.advance front) back behind later := by
  induction events generalizing location text with
  | nil => exact ⟨[], text, rfl, .nil _ _, strung⟩
  | cons event events ih =>
      cases strung with
      | problem diagnostic rest =>
          obtain ⟨front, back, rfl, here, there⟩ := ih rest
          exact ⟨front, back, rfl, .problem diagnostic here, there⟩
      | @mark _ gap part text _ _ _ quiet starts stands rest =>
          obtain ⟨front, back, rfl, here, there⟩ := ih rest
          rw [List.append_assoc] at stands
          refine ⟨gap ++ (part ++ front), back, by simp, .mark quiet starts stands here, ?_⟩
          rw [← List.append_assoc gap, Location.advance_append]
          exact there

/-- Some text in front belongs to the first gap, or nothing is marked at all. -/
theorem inFrontOf (front : Text)
    (strung : Strung (location.advance front) text behind events)
    (joins : ∀ gap rest, text ++ behind = gap ++ '<' :: rest → Quiet gap → Quiet (front ++ gap)) :
    ∃ body trailing, front ++ (text ++ behind) = body ++ trailing ∧
      Strung location body trailing events := by
  generalize place : location.advance front = first at strung
  induction strung with
  | nil => exact ⟨[], _, rfl, .nil _ _⟩
  | problem diagnostic _ ih =>
      obtain ⟨body, trailing, whole, strung⟩ := ih joins place
      exact ⟨body, trailing, whole, .problem diagnostic strung⟩
  | @mark _ gap part text behind event events quiet starts stands rest _ =>
      subst place
      have quiet' : Quiet (front ++ gap) := by
        refine joins gap (part.tail ++ (text ++ behind)) ?_ quiet
        conv_lhs => rw [Piece.head?_eq_some_cons starts]
        simp
      refine ⟨front ++ gap ++ (part ++ text), behind, by simp, .mark quiet' starts ?_ ?_⟩
      · rw [Location.advance_append]
        exact stands
      · rw [List.append_assoc, Location.advance_append]
        exact rest

end Strung

/-- Every text falls into stretches, with a rest that brings nothing. -/
theorem exists_strung (location : Location) (text : Text) :
    ∃ body trailing, text = body ++ trailing ∧
      Strung location body trailing (eventsFrom location 0 text) := by
  induction hlength : text.length using Nat.strongRecOn generalizing location text with
  | _ length ih =>
      cases text with
      | nil => exact ⟨[], [], rfl, .nil _ _⟩
      | cons char rest =>
          by_cases plain : char = '<'
          · subst plain
            rw [eventsFrom_construct, eventsFrom_skip]
            have yields := yields_construct location rest
            have shorter : (rest.drop (construct location rest).2).length < length := by
              rw [← hlength, List.length_drop, List.length_cons]
              omega
            obtain ⟨body, trailing, shape, strung⟩ := ih _ shorter
              ((location.next '<').advance (rest.take (construct location rest).2)) _ rfl
            generalize construct location rest = found at *
            cases yields with
            | nothing dead =>
                obtain rfl : rest = body ++ trailing := shape
                exact strung.inFrontOf ['<'] fun gap rest' split quiet => .dead (by
                  rw [split, startsConstruct_append] at dead
                  exact dead) quiet
            | @mark reports event taken quiet stands =>
                dsimp only at shape strung ⊢
                rw [shape] at stands
                refine ⟨[] ++ ('<' :: rest.take taken ++ body), trailing, ?_, ?_⟩
                · rw [List.nil_append, List.append_assoc, ← shape, List.cons_append,
                    List.take_append_drop]
                · rw [List.append_assoc]
                  exact .reports quiet (.mark .nil rfl stands strung)
          · rw [eventsFrom_plain plain]
            obtain ⟨body, trailing, rfl, strung⟩ :=
              ih rest.length (by rw [← hlength]; simp) (location.next char) rest rfl
            exact strung.inFrontOf [char] fun gap _ _ quiet => .plain plain quiet

end Event

end PageDesigner
