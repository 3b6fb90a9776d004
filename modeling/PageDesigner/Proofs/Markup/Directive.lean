import PageDesigner.Proofs.Document.Inert
import PageDesigner.Proofs.Markup.Literal

/-!
# Printed directives

The body of a directive ends at the first `%>`, quoted or not, its first word is its name unless an
equals sign follows, and its attributes are read leniently.  What is read is tidy all the same: the
name and the names of the attributes are words (`Tree.worded_of_mem`).  Such a directive is printed
without a `>` before its end and with a quoted value for each attribute, so it is read back with its
name and its attributes (`DirectiveRecord.parse_markup`).
-/

namespace PageDesigner

open Piece (Reads Writable lexemes blankPieces attributesPieces)

/-! ## Directives that are read -/

/-- The name of a directive, and those of its attributes, are words. -/
structure Directive.Worded (directive : Directive) : Prop where
  nonempty : directive.name ≠ []
  word : directive.name.all continuesName = true
  attributes : ∀ stated ∈ directive.attributes, stated.name = Name.ofText stated.name.text ∧
    stated.name.text.head?.any startsName = true ∧ stated.name.text.all continuesName = true

/-- The names of attributes are words. -/
theorem TagBody.word_of_mem {location : Location} {text : Text} {stated : Attribute}
    (member : stated ∈ (ofText location text).attributes) :
    stated.name = Name.ofText stated.name.text ∧
      stated.name.text.head?.any startsName = true ∧
      stated.name.text.all continuesName = true := by
  obtain ⟨pieces, rest, stop, reads, starts⟩ := Piece.exists_reads text
  rw [ofText_eq reads starts] at member
  obtain ⟨before, after, split⟩ := List.append_of_mem member
  obtain ⟨former, own, latter, written, lexeme, spans⟩ := exists_span split
  have among : .token (.name written) lexeme ∈ pieces := by
    rw [spans.pieces_eq]
    exact List.mem_append_right _ List.mem_cons_self
  obtain ⟨char, more, next, takes⟩ := reads.takes_of_mem among
  obtain ⟨rfl, -, begins, word⟩ := takes.of_name
  rw [spans.name_eq, Name.text_ofText]
  exact ⟨rfl, begins, word⟩

namespace Event

/-- A directive without a name has the default one, which is a word. -/
theorem worded_directiveOf (location : Location) (body : Text) (region : Region) :
    (directiveOf location body region).Worded := by
  unfold directiveOf
  dsimp only
  split
  · have word : defaultDirective ≠ [] ∧ defaultDirective.all continuesName = true := by decide
    exact ⟨word.1, word.2, fun stated member => TagBody.word_of_mem member⟩
  next stated' =>
    rw [Bool.or_eq_true, not_or] at stated'
    refine ⟨fun none' => stated'.1 (List.isEmpty_iff.mpr none'), ?_,
      fun stated member => TagBody.word_of_mem member⟩
    exact List.all_takeWhile

/-- The directives that an event brings. -/
def directives : Event → List Directive
  | .leaf node => node.directives
  | _ => []

/-- The directives of a forest are those of the events that it is made of. -/
theorem Spells.directives_eq {events : List Event} {nodes : List Node}
    (spells : Spells events nodes) : Node.directivesOf nodes = events.flatMap directives := by
  induction spells with
  | nil => rfl
  | append _ _ ih ih' => rw [Node.directivesOf_append, List.flatMap_append, ih, ih']
  | problem => rfl
  | stray => rfl
  | leaf node => simp [Node.directivesOf, directives]
  | closed inner tag name region ih => simp [Node.directivesOf, Node.directives, directives, ih]
  | unterminated inner tag ih => simp [Node.directivesOf, Node.directives, directives, ih]

theorem Reports.directives_eq {events : List Event} (reports : Reports events) :
    events.flatMap directives = [] := by
  rw [List.flatMap_eq_nil_iff]
  intro event member
  obtain ⟨diagnostic, rfl⟩ := reports event member
  rfl

theorem directives_unlessClosed (part : Enclosed) (problem : Problem) (region : Region) :
    (unlessClosed part problem region).flatMap directives = [] := by
  unfold unlessClosed
  split
  · rfl
  · rfl

theorem directives_openingTag (first : Location) (tag : TagText) :
    (openingTag first tag.text).1.flatMap directives = [] := by
  have quiet := (reports_malformed first tag).directives_eq
  rw [openingTag_text]
  split
  · rw [List.flatMap_append, quiet]; rfl
  split
  · rw [List.flatMap_append, quiet]; rfl
  split
  · split
    · rw [List.flatMap_append, quiet]; rfl
    · rw [List.flatMap_append, quiet]; rfl
  · rw [List.flatMap_append, quiet]; rfl

/-- Only a directive brings a directive. -/
theorem worded_of_construct {first : Location} {text : Text} {directive : Directive}
    (member : directive ∈ (construct first text).1.flatMap directives) : directive.Worded := by
  by_cases named : text.head?.any startsTagName = true
  · obtain ⟨tag, rfl⟩ := TagText.exists_tagText named
    rw [construct_of_name named, directives_openingTag] at member
    cases member
  unfold construct at member
  split at member
  · unfold comment at member
    dsimp only at member
    rw [List.flatMap_append, directives_unlessClosed] at member
    cases member
  split at member
  · unfold Event.directive at member
    dsimp only at member
    rw [List.flatMap_append, directives_unlessClosed] at member
    rw [List.mem_singleton.mp member]
    exact worded_directiveOf _ _ _
  split at member
  · unfold block at member
    dsimp only at member
    rw [List.flatMap_append, directives_unlessClosed] at member
    cases member
  split at member
  · unfold comment at member
    dsimp only at member
    rw [List.flatMap_append, directives_unlessClosed] at member
    cases member
  split at member
  · cases member
  split at member
  · cases member
  split at member
  · cases member
  · next plain =>
      rw [if_neg (by simpa using named)] at member
      cases member

end Event

/-- The directives of a text have words for names. -/
theorem Tree.worded_of_mem {text : Text} {directive : Directive}
    (listed : directive ∈ (parse text).directives) : directive.Worded := by
  unfold directives at listed
  rw [(spells_parse text).directives_eq] at listed
  obtain ⟨event, brought, own⟩ := List.mem_flatMap.mp listed
  obtain ⟨before, after, split⟩ := List.append_of_mem brought
  obtain ⟨front, rest, early, former, latter, here⟩ := Event.exists_construct split
  have brings : event ∈ (Event.construct (Location.start.advance front) rest).1 := by
    rw [here.brings]
    exact List.mem_append_right _ List.mem_cons_self
  exact Event.worded_of_construct (List.mem_flatMap.mpr ⟨event, brings, own⟩)

/-! ## Directives that are printed -/

/-- Without a `>` in it, the body of a directive ends where it is closed. -/
theorem Text.cut?_directiveMark {body : Text} (inside : '>' ∉ body) (rest : Text) :
    cut? "%>" (body ++ '%' :: '>' :: rest) = some (body, rest) := by
  induction body with
  | nil => rfl
  | cons char body ih =>
      have inside' : '>' ∉ body := fun member => inside (List.mem_cons_of_mem _ member)
      have apart : ("%>" : Text).isPrefixOf (char :: (body ++ '%' :: '>' :: rest)) = false := by
        cases body with
        | nil => simp [List.isPrefixOf]
        | cons next body =>
            have plain : '>' ≠ next := fun same => inside' (same ▸ List.mem_cons_self)
            simp [List.isPrefixOf, plain]
      rw [List.cons_append, cut?, apart, if_neg Bool.false_ne_true, ih inside']
      rfl

namespace Event

variable {name : Text} {attributes : List (Text × Text)}

/-- A name and attributes behind it are read as they were written. -/
theorem directiveOf_stated (nonempty : name ≠ []) (word : name.all continuesName = true)
    (writable : ∀ stated ∈ attributes, Writable stated.1 (Reference.escapeAttribute stated.2))
    (location : Location) (region : Region) :
    directiveOf location (' ' :: (name ++ (lexemes (attributesPieces attributes) ++ [' '])))
        region =
      ⟨name, TagBody.stated ((location.next ' ').advance name) attributes, region⟩ := by
  have reads : Reads (lexemes (attributesPieces attributes) ++ [' '])
      (attributesPieces attributes ++ blankPieces [' ']) [] := by
    have stated := Piece.reads_attributesPieces writable ([' '] ++ [])
    exact stated.append (Piece.reads_blankPieces rfl [])
  have stated : (TagBody.ofText ((location.next ' ').advance name)
      (lexemes (attributesPieces attributes) ++ [' '])).attributes =
        TagBody.stated ((location.next ' ').advance name) attributes := by
    rw [TagBody.ofText_eq reads .exhausted]
    unfold TagBody.attributesOf
    rw [TagBody.run_append, TagBody.run_attributesPieces]
    exact (List.append_nil _).trans (List.append_nil _)
  -- What stands behind the name begins with a blank, and behind the blank is no equals sign.
  obtain ⟨stops, unequal⟩ :
      (lexemes (attributesPieces attributes) ++ [' ']).head?.any continuesName = false ∧
        (Text.trimStart (lexemes (attributesPieces attributes) ++ [' '])).head? ≠ some '=' := by
    cases attributes with
    | nil => exact ⟨rfl, by decide⟩
    | cons entry attributes =>
        obtain ⟨⟨first, more, key, starts⟩, -, -⟩ := writable entry List.mem_cons_self
        have solid := isBlank_of_continuesName (continuesName_of_startsName starts)
        obtain ⟨behind, shape⟩ : ∃ behind, lexemes (attributesPieces (entry :: attributes)) ++ [' '] =
            ' ' :: first :: behind := by
          rw [Piece.attributesPieces_cons, Piece.lexemes_append, Piece.lexemes_append,
            Piece.lexemes_attributePieces, key]
          exact ⟨_, rfl⟩
        rw [shape]
        refine ⟨rfl, ?_⟩
        unfold Text.trimStart
        rw [List.dropWhile_cons_of_pos rfl, List.dropWhile_cons_of_neg (by simp [solid])]
        rintro equal
        obtain rfl : first = '=' := Option.some.inj equal
        cases starts
  generalize lexemes (attributesPieces attributes) ++ [' '] = rest at *
  have own : (name ++ rest).takeWhile continuesName = name := Piece.takeWhile_word word stops
  have behind : (name ++ rest).dropWhile continuesName = rest := by
    have both := List.takeWhile_append_dropWhile (p := continuesName) (l := name ++ rest)
    rw [own] at both
    exact List.append_cancel_left both
  have blanks : (' ' :: (name ++ rest)).takeWhile Text.isBlank = [' '] ∧
      (' ' :: (name ++ rest)).dropWhile Text.isBlank = name ++ rest := by
    cases name with
    | nil => exact absurd rfl nonempty
    | cons head tail =>
        have solid : Text.isBlank head = false :=
          isBlank_of_continuesName (List.all_eq_true.mp word head List.mem_cons_self)
        have blank : Text.isBlank ' ' = true := rfl
        simp [blank, solid]
  unfold directiveOf
  dsimp only
  rw [blanks.1, blanks.2, own, behind]
  have stated' : ¬ (name.isEmpty || (Text.trimStart rest).head? == some '=') = true := by
    rw [Bool.or_eq_true, not_or, List.isEmpty_iff, beq_iff_eq]
    exact ⟨nonempty, unequal⟩
  rw [if_neg stated']
  have place : (location.advance [' ']).advance name = (location.next ' ').advance name := rfl
  rw [place, stated]

/-- Between its marks, a printed directive has no `>`. -/
theorem absent_stated (word : name.all continuesName = true)
    (writable : ∀ stated ∈ attributes, Writable stated.1 (Reference.escapeAttribute stated.2)) :
    '>' ∉ ' ' :: (name ++ (lexemes (attributesPieces attributes) ++ [' '])) := by
  have pieces : '>' ∉ lexemes (attributesPieces attributes) := by
    rw [Piece.lexemes_attributesPieces]
    intro member
    obtain ⟨stated, listed, here⟩ := List.mem_flatMap.mp member
    have key : '>' ∉ stated.1 := absent_of_word (writable stated listed).word rfl
    have value : '>' ∉ Reference.escapeAttribute stated.2 :=
      fun member => (Reference.mem_escapeAttribute member).2.2 rfl
    rw [Component.attributeMarkup_eq, Piece.lexemes_attributePieces] at here
    simp [key, value] at here
  have own : '>' ∉ name := absent_of_word word rfl
  simp [own, pieces]

/-- A printed directive is read alike whatever stands behind it, and no character behind it is
taken. -/
theorem sealed_directive (nonempty : name ≠ []) (word : name.all continuesName = true)
    (writable : ∀ stated ∈ attributes, Writable stated.1 (Reference.escapeAttribute stated.2))
    (first : Location) :
    let body := ' ' :: (name ++ (lexemes (attributesPieces attributes) ++ [' ']))
    let markup := '<' :: '%' :: '@' :: (body ++ ['%', '>'])
    Sealed first markup [.leaf (.directive ⟨name,
      TagBody.stated (((first.advance "<%@").next ' ').advance name) attributes,
      ⟨first, first.advance markup⟩⟩)] := by
  intro body markup rest
  have cut : Text.cut? "%>" (body ++ '%' :: '>' :: rest) = some (body, rest) :=
    Text.cut?_directiveMark (absent_stated word writable) rest
  have shape : markup ++ rest = '<' :: '%' :: '@' :: (body ++ '%' :: '>' :: rest) := by
    simp [markup]
  have whole : enclosed 2 "%>" ('%' :: '@' :: (body ++ '%' :: '>' :: rest)) =
      ⟨body, 2 + body.length + 2, true⟩ := by
    unfold enclosed
    rw [List.drop_succ_cons, List.drop_succ_cons, List.drop_zero, cut]
    rfl
  have split : '%' :: '@' :: (body ++ '%' :: '>' :: rest) =
      '%' :: '@' :: (body ++ ['%', '>']) ++ rest := by
    simp
  have length : 2 + body.length + 2 = ('%' :: '@' :: (body ++ ['%', '>'])).length := by
    simp
    omega
  have here : construct first ('%' :: '@' :: (body ++ '%' :: '>' :: rest)) =
      directive first ('%' :: '@' :: (body ++ '%' :: '>' :: rest)) := by
    simp [construct, List.isPrefixOf]
  rw [shape, eventsFrom_construct, here]
  unfold directive
  rw [whole]
  dsimp only
  rw [eventsFrom_skip]
  unfold regionOf
  rw [length, split, List.take_left, List.drop_left, directiveOf_stated nonempty word writable]
  rfl

end Event

namespace DirectiveRecord

/--
Whatever directive a text has, named or not, ended or not, the record made of it is printed as
markup that is read back without a complaint as a single directive, with the same name and the same
attributes.
-/
theorem parse_markup {text : Text} {directive : Directive}
    (listed : directive ∈ (Tree.parse text).directives) {record : DirectiveRecord}
    (named : record.name = directive.name)
    (stated : record.properties = DirectiveTable.propertiesOf directive) :
    ∃ read : Directive, Tree.parse record.markup = ⟨[.directive read], [], record.markup⟩ ∧
      read.name = directive.name ∧
      read.attributes.map Attribute.entry = directive.attributes.map Attribute.entry := by
  obtain ⟨nonempty, word, words⟩ := Tree.worded_of_mem listed
  have writable : ∀ entry ∈ DirectiveTable.propertiesOf directive,
      Writable entry.1 (Reference.escapeAttribute entry.2) := by
    intro entry member
    obtain ⟨own, listed', rfl⟩ := List.mem_map.mp member
    obtain ⟨-, starts, continues⟩ := words own listed'
    exact Piece.writable_of_word starts continues own.value
  have sealed := Event.sealed_directive nonempty word writable .start
  dsimp only at sealed
  have shape : record.markup = '<' :: '%' :: '@' :: (' ' :: (directive.name ++
      (lexemes (attributesPieces (DirectiveTable.propertiesOf directive)) ++ [' '])) ++
        ['%', '>']) := by
    unfold markup
    rw [named, stated, Piece.lexemes_attributesPieces]
    have each : propertyMarkup = fun entry : Text × Text =>
        ' ' :: Component.attributeMarkup entry.1 entry.2 := rfl
    rw [each]
    simp
  rw [← shape] at sealed
  refine ⟨_, Event.Brings.parse_eq ⟨_, sealed, fun growth => rfl⟩, rfl, ?_⟩
  dsimp only
  rw [TagBody.entries_stated]
  unfold DirectiveTable.propertiesOf
  rw [List.map_map]
  refine List.map_congr_left fun own member => ?_
  exact Prod.ext (words own member).1.symm rfl

/-- A directive without a name or an end, whose attributes are hardly attributes, is printed as one
that states them all. -/
theorem parse_markup_dangling :
    ∃ directive ∈ (Tree.parse "<div><%@ Language=C a='1>\"<' Debug").directives,
      directive.name = "Page" ∧ ∃ read : Directive,
        Tree.parse "<%@ Page Language=\"C\" a=\"1&gt;&quot;&lt;\" Debug=\"\" %>" =
          ⟨[.directive read], [],
            "<%@ Page Language=\"C\" a=\"1&gt;&quot;&lt;\" Debug=\"\" %>"⟩ ∧
        read.name = "Page" ∧
        read.attributes.map Attribute.entry = directive.attributes.map Attribute.entry := by
  have reads : (Tree.parse "<div><%@ Language=C a='1>\"<' Debug").directives.any
      (fun directive => directive.name = "Page" && DirectiveTable.propertiesOf directive =
        ([("Language", "C"), ("a", "1>\"<"), ("Debug", [])] : List (Text × Text))) = true := by
    decide +kernel
  simp only [List.any_eq_true, Bool.and_eq_true, decide_eq_true_eq] at reads
  obtain ⟨directive, member, named, stated⟩ := reads
  have printed := @parse_markup _ _ member ⟨_, _, 0⟩ named.symm stated.symm
  rw [named] at printed
  exact ⟨directive, member, named, printed⟩

end DirectiveRecord

end PageDesigner
