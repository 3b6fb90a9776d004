import PageDesigner.Proofs.Document.TagEdit
import PageDesigner.Proofs.Surface.Naming

/-!
# Tags without their places

Two versions of a text have the same tags behind an edit, but not at the same places.
A profile is what a tag says without its place: its name, what it states, and the
characters of the tag.  The profiles of a text are read without locations
(`profilesFrom`), and those behind a tag follow from how the tag ends and from the text
behind it (`TagText.later`).
-/

namespace PageDesigner

namespace Entry

/-- Whether one of the entries is an `id`. -/
def statesId (entries : List Entry) : Bool := entries.any fun entry => entry.1.isWritten "id"

/-- Whether the entries say `runat="server"`. -/
def runsAtServer (entries : List Entry) : Bool :=
  entries.any fun entry => entry.1.isWritten "runat" && entry.2.sameName "server"

/-- The first `id` of the entries, unless it is missing or empty. -/
def id? (entries : List Entry) : Option Text :=
  let id := ((entries.find? fun entry => entry.1.isWritten "id").map Prod.snd).getD []
  if id.isEmpty then none else some id

theorem statesId_append (first second : List Entry) :
    statesId (first ++ second) = (statesId first || statesId second) :=
  List.any_append

theorem runsAtServer_append (first second : List Entry) :
    runsAtServer (first ++ second) = (runsAtServer first || runsAtServer second) :=
  List.any_append

/-- Whether an `id` is stated depends on the names. -/
theorem statesId_congr {entries entries' : List Entry}
    (names : entries'.map Prod.fst = entries.map Prod.fst) :
    statesId entries' = statesId entries := by
  have named : ∀ entries : List Entry,
      statesId entries = (entries.map Prod.fst).any (·.isWritten "id") := by
    intro entries
    rw [List.any_map]
    rfl
  rw [named, named, names]

/-- Only the value `server` counts. -/
theorem runsAtServer_of_ne {value : Text} (differs : value.sameName "server" = false)
    (name : Name) : runsAtServer [(name, value)] = false := by
  simp only [runsAtServer, List.any_cons, List.any_nil, differs, Bool.and_false, Bool.or_false]

theorem id?_of_unstated {entries : List Entry} (unstated : statesId entries = false) :
    id? entries = none := by
  have missing : entries.find? (fun entry => entry.1.isWritten "id") = none := by
    rw [List.find?_eq_none]
    intro entry member
    simpa using List.any_eq_false.mp unstated entry member
  unfold id?
  rw [missing]
  rfl

/-! ## Names -/

/-- No two entries have one name up to letter case. -/
def Distinct (entries : List Entry) : Prop :=
  (entries.map fun entry => entry.1.text.lower).Nodup

instance (entries : List Entry) : Decidable (Distinct entries) :=
  inferInstanceAs (Decidable (List.Nodup _))

theorem Distinct.of_names {entries entries' : List Entry} (distinct : Distinct entries)
    (names : entries'.map Prod.fst = entries.map Prod.fst) : Distinct entries' := by
  have named : ∀ entries : List Entry, (entries.map fun entry => entry.1.text.lower) =
      (entries.map Prod.fst).map (·.text.lower) := by
    intro entries
    rw [List.map_map]
    rfl
  unfold Distinct at distinct ⊢
  rw [named] at distinct ⊢
  rw [names]
  exact distinct

/-- An `id` can be added where none is stated. -/
theorem Distinct.concat_id {entries : List Entry} (distinct : Distinct entries)
    (unstated : statesId entries = false) (id : Text) :
    Distinct (entries ++ [(Name.ofText "id", id)]) := by
  unfold Distinct at distinct ⊢
  rw [List.map_append, List.nodup_append]
  refine ⟨distinct, List.nodup_singleton _, ?_⟩
  rintro _ member _ here rfl
  obtain ⟨entry, listed, same⟩ := List.mem_map.mp member
  rw [List.map_singleton, List.mem_singleton] at here
  have named : entry.1.isWritten "id" = true := Text.sameName_iff.mpr (same.trans here)
  have unnamed := List.any_eq_false.mp unstated entry listed
  exact unnamed named

/-! ## Stating a value -/

/-- The entries with a value for a name: in place of the first value that they state under the name,
or else behind all the others. -/
def withValue (key value : Text) : List Entry → List Entry
  | [] => [(Name.ofText key, value)]
  | entry :: rest =>
      if entry.1.isWritten key then (entry.1, value) :: rest
      else entry :: withValue key value rest

variable {key value : Text} {before after : List Entry} {entry : Entry}

theorem withValue_of_unstated (unstated : ∀ entry ∈ before, entry.1.isWritten key = false) :
    withValue key value before = before ++ [(Name.ofText key, value)] := by
  induction before with
  | nil => rfl
  | cons entry before ih =>
      rw [withValue, if_neg (by simp [unstated entry List.mem_cons_self]),
        ih fun other member => unstated other (List.mem_cons_of_mem _ member)]
      rfl

theorem withValue_of_stated (unstated : ∀ entry ∈ before, entry.1.isWritten key = false)
    (named : entry.1.isWritten key = true) :
    withValue key value (before ++ entry :: after) = before ++ (entry.1, value) :: after := by
  induction before with
  | nil => exact if_pos named
  | cons other before ih =>
      rw [List.cons_append, withValue, if_neg (by simp [unstated other List.mem_cons_self]),
        ih fun further member => unstated further (List.mem_cons_of_mem _ member)]
      rfl

/-- A value in place of another one leaves the names. -/
theorem names_withValue {entries : List Entry} (key value : Text)
    (stated : entries.any (·.1.isWritten key) = true) :
    (withValue key value entries).map Prod.fst = entries.map Prod.fst := by
  induction entries with
  | nil => cases stated
  | cons entry rest ih =>
      unfold withValue
      split
      · rfl
      · next unnamed =>
          rw [List.any_cons, Bool.or_eq_true] at stated
          rw [List.map_cons, List.map_cons, ih (stated.resolve_left unnamed)]

theorem eraseP_of_stated (unstated : ∀ entry ∈ before, entry.1.isWritten key = false)
    (named : entry.1.isWritten key = true) :
    (before ++ entry :: after).eraseP (·.1.isWritten key) = before ++ after := by
  rw [List.eraseP_append_right _ (by simpa using unstated)]
  simp [named]

/-- The value that was given is the one that is found. -/
theorem find?_withValue (key value : Text) (entries : List Entry) :
    ((withValue key value entries).find? (·.1.isWritten key)).map Prod.snd = some value := by
  induction entries with
  | nil =>
      have named : (Name.ofText key).isWritten key = true := by simp [Name.isWritten]
      simp [withValue, named]
  | cons entry rest ih =>
      unfold withValue
      split
      · next named => simp [named]
      · next unnamed => simpa [List.find?_cons, unnamed] using ih

/-- The other entries stay what they are, in their order. -/
theorem eraseP_withValue (key value : Text) (entries : List Entry) :
    (withValue key value entries).eraseP (·.1.isWritten key) =
      entries.eraseP (·.1.isWritten key) := by
  induction entries with
  | nil =>
      have named : (Name.ofText key).isWritten key = true := by simp [Name.isWritten]
      simp [withValue, named]
  | cons entry rest ih =>
      unfold withValue
      split
      · next named => simp [named]
      · next unnamed => simpa [List.eraseP_cons, unnamed] using ih

/-- An `id` does not say whether the tag runs at the server. -/
theorem runsAtServer_withValue (value : Text) (entries : List Entry) :
    runsAtServer (withValue "id" value entries) = runsAtServer entries := by
  have apart : ∀ name : Name, name.isWritten "id" = true → name.isWritten "runat" = false := by
    intro name named
    rw [Bool.eq_false_iff]
    intro runat
    have lower := (Text.sameName_iff.mp named).symm.trans (Text.sameName_iff.mp runat)
    cases lower
  unfold runsAtServer
  induction entries with
  | nil => rw [withValue, List.any_cons, apart (Name.ofText "id") (by decide)]; rfl
  | cons entry rest ih =>
      unfold withValue
      split
      · next named => rw [List.any_cons, List.any_cons, apart entry.1 named]; rfl
      · rw [List.any_cons, List.any_cons, ih]

theorem id?_withValue {value : Text} (nonempty : value ≠ []) (entries : List Entry) :
    id? (withValue "id" value entries) = some value := by
  unfold id?
  rw [find?_withValue]
  simp [nonempty]

end Entry

namespace Tag

theorem statesId_entries (tag : Tag) :
    Entry.statesId tag.entries = (tag.attribute? "id").isSome := by
  unfold Entry.statesId entries attribute?
  rw [List.any_map, List.isSome_find?]
  rfl

theorem id?_entries (tag : Tag) : Entry.id? tag.entries = tag.id? := by
  unfold Entry.id? id? value attribute? entries
  rw [List.find?_map, Option.map_map]
  rfl

theorem runsAtServer_entries (tag : Tag) : Entry.runsAtServer tag.entries = tag.runsAtServer :=
  List.any_map

end Tag

/-- What a tag says, without regard to where it stands. -/
structure Profile where
  name : Name
  entries : List Entry
  opening : Text

/-- What the tag says in its document. -/
def Document.profile (document : Document) (tag : Tag) : Profile :=
  ⟨tag.name, tag.entries, document.regionText tag.region⟩

/-- The text decides what stands between two places. -/
theorem Document.between_congr {document document' : Document}
    (same : document'.text = document.text) :
    document'.buffer.between = document.buffer.between := by
  have text : document'.buffer.history.text = document.buffer.history.text := same
  funext first last
  unfold Buffer.between History.between History.index
  rw [text]

theorem Document.regionText_congr {document document' : Document}
    (same : document'.text = document.text) : document'.regionText = document.regionText := by
  funext region
  exact congrFun (congrFun (between_congr same) region.first) region.last

theorem Document.profile_congr {document document' : Document}
    (same : document'.text = document.text) : document'.profile = document.profile := by
  funext tag
  unfold profile
  rw [regionText_congr same]

/-- What the tag with these parts says. -/
def TagText.profile (tag : TagText) : Profile := ⟨tag.name, tag.entries, tag.opening⟩

theorem Document.profile_tagOf {document : Document} {front : Text} {tag : TagText}
    (shape : document.text = front ++ '<' :: tag.text) :
    document.profile (tag.tagOf (Location.start.advance front)) = tag.profile := by
  unfold Document.profile TagText.profile
  rw [tag.entries_tagOf, Document.regionText_tagOf shape]
  rfl

namespace Event

/-! ## Lengths do not depend on places -/

/-- The characters that the content and the closing tag of a raw element take. -/
def rawLength? (base text : Text) : Option Nat := (rawEnd? base .start text).map Prod.snd

theorem length_rawEnd? (base : Text) (location : Location) (text : Text) :
    (rawEnd? base location text).map Prod.snd = rawLength? base text := by
  unfold rawLength? rawEnd?
  dsimp only
  split <;> rfl

/-- The characters that an element takes behind its opening tag. -/
def takenBehind (name : Name) (stop : TagStop) (behind : Text) : Nat :=
  let base := name.base.lower
  if stop = .selfClose then 0
  else if !name.isQualified && voidNames.contains base then 0
  else if !name.isQualified && rawNames.contains base then
    (rawLength? base behind).getD behind.length
  else 0

/-- What an opening tag takes: its own characters, and the content of a raw element. -/
theorem length_openingTag (first : Location) (tag : TagText) :
    (openingTag first tag.text).2 =
      (tag.written ++ (Piece.lexemes tag.pieces ++ tag.stop.mark)).length +
        takenBehind tag.name tag.stop tag.behind := by
  have shape : tag.text = (tag.written ++ (Piece.lexemes tag.pieces ++ tag.stop.mark)) ++
      tag.behind := by
    simp [TagText.text]
  have length : tag.text.length =
      (tag.written ++ (Piece.lexemes tag.pieces ++ tag.stop.mark)).length + tag.behind.length := by
    rw [shape, List.length_append]
  have rest : (tag.text.drop tag.written.length).drop
      (Piece.lexemes tag.pieces ++ tag.stop.mark).length = tag.behind := by
    rw [List.drop_drop, ← List.length_append, shape, List.drop_left]
  unfold openingTag takenBehind
  dsimp only
  rw [tag.takeWhile_text, tag.ofText_inner]
  dsimp only
  rw [rest]
  have named : Name.ofText tag.written = tag.name := rfl
  rw [named]
  have sum := @List.length_append _ tag.written (Piece.lexemes tag.pieces ++ tag.stop.mark)
  by_cases selfClosing : tag.stop = .selfClose
  · rw [if_pos selfClosing, if_pos selfClosing]
    exact sum.symm
  rw [if_neg selfClosing, if_neg selfClosing]
  by_cases isVoid : (!tag.name.isQualified && voidNames.contains tag.name.base.lower) = true
  · rw [if_pos isVoid, if_pos isVoid]
    exact sum.symm
  rw [if_neg isVoid, if_neg isVoid]
  by_cases isRaw : (!tag.name.isQualified && rawNames.contains tag.name.base.lower) = true
  · rw [if_pos isRaw, if_pos isRaw, ← length_rawEnd? _
      (((first.next '<').advance tag.written).advance
        (Piece.lexemes tag.pieces ++ tag.stop.mark))]
    cases rawEnd? tag.name.base.lower _ tag.behind with
    | none => exact length
    | some found =>
        dsimp only [Option.map_some, Option.getD_some]
        rw [← sum]
  · rw [if_neg isRaw, if_neg isRaw]
    exact sum.symm

theorem length_construct (first second : Location) (text : Text) :
    (construct first text).2 = (construct second text).2 := by
  by_cases named : text.head?.any startsTagName = true
  · obtain ⟨tag, rfl⟩ := TagText.exists_tagText named
    rw [construct_of_name named, construct_of_name named, length_openingTag, length_openingTag]
  · unfold construct
    split
    · rfl
    split
    · rfl
    split
    · rfl
    split
    · rfl
    split
    · rfl
    split
    · rfl
    split
    · rfl
    · next plain => rw [if_neg (by simpa using named), if_neg (by simpa using named)]

/-! ## Reading profiles -/

/-- What the opening tag behind a `<` says. -/
def profileAt (text : Text) : Profile :=
  let written := text.takeWhile continuesName
  let body := TagBody.ofText .start (text.drop written.length)
  ⟨Name.ofText written, body.attributes.map Attribute.entry,
    '<' :: text.take (written.length + body.length)⟩

theorem profileAt_text (tag : TagText) : profileAt tag.text = tag.profile := by
  have shape : tag.text = (tag.written ++ (Piece.lexemes tag.pieces ++ tag.stop.mark)) ++
      tag.behind := by
    simp [TagText.text]
  unfold profileAt TagText.profile
  dsimp only
  rw [tag.takeWhile_text, tag.ofText_inner]
  dsimp only
  rw [TagBody.attributesOf_entry, ← List.length_append, shape, List.take_left]
  rfl

/-- What the opening tags of the text say, behind its next `skip` characters. -/
def profilesFrom : Nat → Text → List Profile
  | _, [] => []
  | skip + 1, _ :: rest => profilesFrom skip rest
  | 0, char :: rest =>
      if char = '<' then
        (if rest.head?.any startsTagName then [profileAt rest] else []) ++
          profilesFrom (construct .start rest).2 rest
      else profilesFrom 0 rest

/-- Skipping characters is reading the text behind them. -/
theorem profilesFrom_drop (skip : Nat) (text : Text) :
    profilesFrom skip text = profilesFrom 0 (text.drop skip) := by
  induction text generalizing skip with
  | nil => cases skip <;> rfl
  | cons char rest ih =>
      cases skip with
      | zero => rfl
      | succ skip => exact ih skip

/-- Characters that start no construct bring no tag. -/
theorem profilesFrom_plain {plain : Text} (absent : '<' ∉ plain) (rest : Text) :
    profilesFrom 0 (plain ++ rest) = profilesFrom 0 rest := by
  induction plain with
  | nil => rfl
  | cons char plain ih =>
      have differs : char ≠ '<' := by
        rintro rfl
        exact absent List.mem_cons_self
      rw [List.cons_append, profilesFrom, if_neg differs]
      exact ih fun member => absent (List.mem_cons_of_mem _ member)

/-- The opening tags of a part of a document say what their profiles say. -/
theorem openings_profile {document : Document} {walked text : Text}
    (shape : document.text = walked ++ text) (skip : Nat) :
    (((eventsFrom (Location.start.advance walked) skip text).flatMap openings).map fun opening =>
      document.profile opening.1) = profilesFrom skip text := by
  induction text generalizing walked skip with
  | nil => cases skip <;> rfl
  | cons char rest ih =>
      have shape' : document.text = (walked ++ [char]) ++ rest := by rw [shape]; simp
      have place : (Location.start.advance walked).next char =
          Location.start.advance (walked ++ [char]) := by
        rw [Location.advance_append]
        rfl
      cases skip with
      | succ skip =>
          have later := ih shape' skip
          rw [← place] at later
          exact later
      | zero =>
          by_cases opens : char = '<'
          · subst opens
            have later := ih shape' (construct .start rest).2
            rw [← place] at later
            rw [eventsFrom_construct, List.flatMap_append, List.map_append, profilesFrom,
              if_pos rfl, length_construct _ .start rest, later]
            congr 1
            by_cases named : rest.head?.any startsTagName = true
            · rw [if_pos named, construct_of_name named, openings_openingTag, List.map_singleton]
              obtain ⟨tag, rfl⟩ := TagText.exists_tagText named
              rw [TagText.tagAt_text, profileAt_text, Document.profile_tagOf shape]
            · rw [if_neg named]
              rcases openings_construct (Location.start.advance walked) rest with none' | named'
              · rw [none']
                rfl
              · exact absurd named' named
          · have later := ih shape' 0
            rw [← place] at later
            rw [eventsFrom_plain opens, profilesFrom, if_neg opens]
            exact later

end Event

namespace TagText

/-- What the tags behind this one say. -/
def later (tag : TagText) : List Profile :=
  Event.profilesFrom (Event.takenBehind tag.name tag.stop tag.behind) tag.behind

/-- Another version of a tag, with the same name and the same tags behind it, that runs at the
server just as the tag does. -/
structure Revision (tag revised : TagText) : Prop where
  written_eq : revised.written = tag.written
  later_eq : revised.later = tag.later
  serves : Entry.runsAtServer revised.entries = Entry.runsAtServer tag.entries

/-- The tags behind a tag of a document. -/
theorem openings_later {document : Document} {front : Text} {tag : TagText}
    (shape : document.text = front ++ '<' :: tag.text) :
    (((Event.eventsFrom (Location.start.advance (front ++ ['<']))
        (Event.openingTag (Location.start.advance front) tag.text).2
        tag.text).flatMap Event.openings).map fun opening => document.profile opening.1) =
      tag.later := by
  have shape' : document.text = (front ++ ['<']) ++ tag.text := by rw [shape]; simp
  have parts : tag.text = (tag.written ++ (Piece.lexemes tag.pieces ++ tag.stop.mark)) ++
      tag.behind := by
    simp [text]
  unfold later
  rw [Event.openings_profile shape', Event.length_openingTag, Event.profilesFrom_drop,
    Event.profilesFrom_drop _ tag.behind, parts, List.drop_length_add_append]

end TagText

/-! ## Blanks behind a tag -/

namespace Text

theorem toLower_of_isBlank {char : Char} (blank : isBlank char = true) : char.toLower = char := by
  refine toLower_of_not_isUpper (decide_eq_false ?_)
  rintro ⟨above, below⟩
  have above' : 65 ≤ char.toNat := above
  have below' : char.toNat ≤ 90 := below
  simp only [isBlank, Bool.or_eq_true, Bool.and_eq_true, decide_eq_true_eq, beq_iff_eq] at blank
  omega

theorem lower_of_blanks {blanks : Text} (areBlank : blanks.all isBlank = true) :
    blanks.lower = blanks := by
  have same : ∀ char ∈ blanks, char.toLower = char := fun char member =>
    toLower_of_isBlank (List.all_eq_true.mp areBlank char member)
  unfold lower
  rw [List.map_congr_left same, List.map_id']

theorem absent_of_blanks {blanks : Text} (areBlank : blanks.all isBlank = true) {char : Char}
    (solid : isBlank char = false) : char ∉ blanks := by
  intro member
  rw [List.all_eq_true.mp areBlank char member] at solid
  cases solid

/-- A mark is looked for behind characters none of which it starts with. -/
theorem cut?_plain {first : Char} {mark plain : Text} (absent : first ∉ plain) (text : Text) :
    cut? (first :: mark) (plain ++ text) =
      (cut? (first :: mark) text).map fun (before, after) => (plain ++ before, after) := by
  induction plain with
  | nil =>
      rw [List.nil_append]
      cases cut? (first :: mark) text <;> rfl
  | cons char plain ih =>
      have differs : (first == char) = false := by
        simpa using fun same : first = char => absent (same ▸ List.mem_cons_self)
      have skipped : (first :: mark).isPrefixOf (char :: (plain ++ text)) = false := by
        simp [List.isPrefixOf, differs]
      rw [List.cons_append, cut?, skipped, ih fun member => absent (List.mem_cons_of_mem _ member)]
      cases cut? (first :: mark) text <;> rfl

end Text

namespace Event

/-- The end of a raw element is looked for behind blanks. -/
theorem rawLength?_blanks {blanks : Text} (areBlank : blanks.all Text.isBlank = true)
    (base behind : Text) :
    rawLength? base (blanks ++ behind) = (rawLength? base behind).map (blanks.length + ·) := by
  have absent : '<' ∉ blanks := Text.absent_of_blanks areBlank (by decide)
  unfold rawLength? rawEnd?
  dsimp only
  rw [Text.lower_append, Text.lower_of_blanks areBlank]
  have mark : ("</" : Text) ++ base.lower = '<' :: ('/' :: base.lower) := rfl
  rw [mark, Text.cut?_plain absent]
  cases Text.cut? ('<' :: ('/' :: base.lower)) behind.lower with
  | none => rfl
  | some found =>
      obtain ⟨content, after⟩ := found
      simp only [Option.map_some, lengthThrough, enclosed, List.length_append, Nat.add_assoc,
        List.drop_length_add_append]
      split <;> simp [Nat.add_assoc]

/-- Blanks behind a tag that was not closed do not change what the tags behind them say. -/
theorem profilesFrom_blanks {blanks : Text} (areBlank : blanks.all Text.isBlank = true)
    (name : Name) {stop : TagStop} (open' : stop ≠ .selfClose) (behind : Text) :
    profilesFrom (takenBehind name .close (blanks ++ behind)) (blanks ++ behind) =
      profilesFrom (takenBehind name stop behind) behind := by
  have plain := profilesFrom_plain (Text.absent_of_blanks areBlank (by decide)) behind
  unfold takenBehind
  dsimp only
  rw [if_neg (by decide), if_neg open']
  split
  · exact plain
  split
  · rw [rawLength?_blanks areBlank, profilesFrom_drop, profilesFrom_drop _ behind]
    cases rawLength? name.base.lower behind with
    | none =>
        rw [Option.map_none, Option.getD_none, Option.getD_none, List.drop_length,
          List.drop_length]
    | some taken =>
        rw [Option.map_some, Option.getD_some, Option.getD_some, List.drop_length_add_append]
  · exact plain

end Event

end PageDesigner
