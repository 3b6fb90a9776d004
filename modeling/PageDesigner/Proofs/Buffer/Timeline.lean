import PageDesigner.Proofs.Buffer.Cutting

/-!
# The history of a buffer as a list of texts

A timeline is a list of texts with a cursor on one of them.  An edit drops what stands
behind the cursor and adds the edited text, an undo or redo moves the cursor by one.  The
buffer keeps neither earlier nor later texts: it has the changes that lead from one to the
next, and two counts.  It nevertheless shows what the timeline shows, whatever edits were
made (`Buffer.shows_run`).

The invariant is that the changes that can be undone lead from the text back through what
stands in front of the cursor, and the changes that can be made again lead through what
stands behind it (`Buffer.Follows`).
-/

namespace PageDesigner

/-! ## Timelines -/

/-- The text with a region replaced; a region that ends before it begins is empty. -/
def Source.replaced (source : Text) (region : Region) (inserted : Text) : Text :=
  let front := before source region.first
  front ++ inserted ++ source.drop (max front.length (before source region.last).length)

/-- A list of texts with a cursor on one of them. -/
@[ext]
structure Timeline where
  texts : List Text
  cursor : Nat
  inside : cursor < texts.length

namespace Timeline

/-- A single text. -/
def ofText (text : Text) : Timeline := ⟨[text], 0, Nat.zero_lt_one⟩

/-- The text at the cursor. -/
def present (timeline : Timeline) : Text := timeline.texts.get ⟨timeline.cursor, timeline.inside⟩

/-- How many texts stand behind the cursor. -/
def ahead (timeline : Timeline) : Nat := timeline.texts.length - (timeline.cursor + 1)

/-- Drop what stands behind the cursor, add a text and move on to it. -/
def record (timeline : Timeline) (text : Text) : Timeline where
  texts := timeline.texts.take (timeline.cursor + 1) ++ [text]
  cursor := timeline.cursor + 1
  inside := by
    have inside := timeline.inside
    rw [List.length_append, List.length_take_of_le inside]
    exact Nat.lt_succ_self _

/-- Move the cursor one text back, if one stands in front of it. -/
def back (timeline : Timeline) : Bool × Timeline :=
  if 0 < timeline.cursor then
    (true, ⟨timeline.texts, timeline.cursor - 1,
      Nat.lt_of_le_of_lt (Nat.sub_le _ _) timeline.inside⟩)
  else (false, timeline)

/-- Move the cursor one text on, if one stands behind it. -/
def forth (timeline : Timeline) : Bool × Timeline :=
  if further : timeline.cursor + 1 < timeline.texts.length then
    (true, ⟨timeline.texts, timeline.cursor + 1, further⟩)
  else (false, timeline)

/-- Make an edit; also tells whether an undo or redo took place. -/
def edit (timeline : Timeline) : Edit → Bool × Timeline
  | .insert location inserted =>
      (true, timeline.record (Source.replaced timeline.present ⟨location, location⟩ inserted))
  | .replace region inserted =>
      (true, timeline.record (Source.replaced timeline.present region inserted))
  | .remove region => (true, timeline.record (Source.replaced timeline.present region []))
  | .replaceAll text => (true, timeline.record text)
  | .undo => timeline.back
  | .redo => timeline.forth

/-- Make edits one after the other. -/
def run (timeline : Timeline) (edits : List Edit) : Timeline :=
  edits.foldl (fun timeline edit => (timeline.edit edit).2) timeline

/-- The texts in front of the cursor, the last one first, the text at the cursor, and those
behind it. -/
def around (earlier : List Text) (text : Text) (later : List Text) : Timeline where
  texts := earlier.reverse ++ text :: later
  cursor := earlier.length
  inside := by simp

variable (earlier later : List Text) (text other : Text)

@[simp]
theorem ahead_around : (around earlier text later).ahead = later.length := by
  unfold ahead around
  simp only [List.length_append, List.length_reverse, List.length_cons]
  omega

@[simp]
theorem present_around : (around earlier text later).present = text := by
  unfold present around
  simp

theorem record_around :
    (around earlier text later).record other = around (text :: earlier) other [] := by
  unfold record around
  ext1
  · simp [List.take_append, List.take_of_length_le]
  · rfl

theorem back_around_cons :
    (around (other :: earlier) text later).back = (true, around earlier other (text :: later)) := by
  unfold back around
  simp

theorem forth_around_nil : (around earlier text []).forth = (false, around earlier text []) := by
  unfold forth around
  simp

theorem forth_around_cons :
    (around earlier text (other :: later)).forth =
      (true, around (text :: earlier) other later) := by
  unfold forth around
  simp

end Timeline

/-! ## Changes that lead from text to text -/

namespace Change

/-- The change makes one text of another: what it removes stands at its place. -/
def Turns (change : Change) (before after : Text) : Prop :=
  ∃ front rest, front.length = change.start ∧
    before = front ++ (change.removed ++ rest) ∧ after = front ++ (change.inserted ++ rest)

variable {change : Change} {before after : Text}

theorem Turns.inverse (turns : change.Turns before after) : change.inverse.Turns after before := by
  obtain ⟨front, rest, start, whole, whole'⟩ := turns
  exact ⟨front, rest, start, whole', whole⟩

theorem Turns.apply (turns : change.Turns before after) : change.apply before = after := by
  obtain ⟨front, rest, start, rfl, rfl⟩ := turns
  unfold Change.apply
  rw [← start, List.take_left, ← List.append_assoc front change.removed rest,
    ← List.length_append, List.drop_left, List.append_assoc]

/-- Changes that lead from a text through others, one after the other. -/
inductive Lead : List Change → Text → List Text → Prop
  | done (text : Text) : Lead [] text []
  | step {change : Change} {changes : List Change} {text next : Text} {texts : List Text}
      (turns : change.Turns text next) (rest : Lead changes next texts) :
      Lead (change :: changes) text (next :: texts)

/-- What the first change removes stands in the text. -/
theorem Lead.turns {changes : List Change} {text : Text} {texts : List Text}
    (lead : Lead changes text texts) (first : change ∈ changes.head?) :
    ∃ next, change.Turns text next := by
  cases lead with
  | done => cases first
  | step turns =>
      obtain rfl := Option.some.inj first
      exact ⟨_, turns⟩

end Change

namespace History

variable (history : History) {start stop : Nat}

/-- What stands between two places, with what is in front of it and behind it. -/
theorem eq_append_between (ordered : start ≤ stop) : history.text =
    history.text.take start ++ ((history.text.take stop).drop start ++ history.text.drop stop) := by
  have rest := append_between history.text start stop
  rw [Nat.max_eq_right ordered] at rest
  rw [rest, List.take_append_drop]

/-- Replacing what stands between two places is one change of the text. -/
theorem turns_splice (ordered : start ≤ stop) (within : start ≤ history.text.length)
    (inserted : Text) :
    Change.Turns ⟨start, (history.text.take stop).drop start, inserted⟩ history.text
      (history.text.take start ++ (inserted ++ history.text.drop stop)) :=
  ⟨history.text.take start, history.text.drop stop, List.length_take_of_le within,
    history.eq_append_between ordered, rfl⟩

theorem text_splice (ordered : start ≤ stop) (within : start ≤ history.text.length)
    (inserted : Text) :
    (history.splice start stop inserted).text =
      history.text.take start ++ (inserted ++ history.text.drop stop) :=
  (history.turns_splice ordered within inserted).apply

/-- A replaced region of the buffer is the one of the source. -/
theorem text_replace (region : Region) (inserted : Text) :
    (history.replace region inserted).text = Source.replaced history.text region inserted := by
  unfold replace Source.replaced
  dsimp only
  rw [text_splice history (Nat.le_max_left _ _) (history.index_le _), length_before,
    length_before, take_index, List.append_assoc]

theorem text_replaceAll (inserted : Text) : (history.replaceAll inserted).text = inserted := by
  unfold replaceAll
  rw [text_splice history (Nat.zero_le _) (Nat.zero_le _)]
  simp

/-- An insertion replaces what stands between a location and itself. -/
theorem insert_eq_replace (location : Location) (inserted : Text) :
    history.insert location inserted = history.replace ⟨location, location⟩ inserted := by
  unfold insert replace
  dsimp only
  rw [Nat.max_self]

end History

/-! ## The buffer follows its timeline -/

namespace Buffer

/-- Make edits one after the other. -/
def run (buffer : Buffer) (edits : List Edit) : Buffer :=
  edits.foldl (fun buffer edit => (buffer.edit edit).2) buffer

/-- The changes lead back through earlier texts and on through later ones, and are counted. -/
structure Leads (buffer : Buffer) (earlier later : List Text) : Prop where
  back : Change.Lead (buffer.history.done.map Change.inverse) buffer.text earlier
  forth : Change.Lead buffer.history.undone buffer.text later
  tracker_eq : buffer.tracker = ⟨earlier.length, later.length⟩

/-- The texts of the timeline are those through which the changes lead. -/
def Follows (buffer : Buffer) (timeline : Timeline) : Prop :=
  ∃ earlier later, buffer.Leads earlier later ∧ timeline = .around earlier buffer.text later

theorem text_eq_history (buffer : Buffer) : buffer.text = buffer.history.text := rfl

@[simp]
theorem history_commit (buffer : Buffer) (history : History) (tracker : Tracker) :
    (buffer.commit history tracker).history = history := by
  unfold commit notify
  split <;> rfl

@[simp]
theorem tracker_commit (buffer : Buffer) (history : History) (tracker : Tracker) :
    (buffer.commit history tracker).tracker = tracker := by
  unfold commit notify
  split <;> rfl

variable {buffer : Buffer} {earlier later : List Text} {timeline : Timeline}

theorem leads_commit {history : History} {tracker : Tracker}
    (back : Change.Lead (history.done.map Change.inverse) history.text earlier)
    (forth : Change.Lead history.undone history.text later)
    (counted : tracker = ⟨earlier.length, later.length⟩) :
    (buffer.commit history tracker).Leads earlier later := by
  refine ⟨?_, ?_, ?_⟩
  · rw [text_eq_history, history_commit]
    exact back
  · rw [text_eq_history, history_commit]
    exact forth
  · rw [tracker_commit]
    exact counted

theorem edit_undo_of_not (nothing : buffer.tracker.canUndo = false) :
    buffer.edit .undo = (false, buffer) := by
  unfold edit
  exact if_neg (by rw [nothing]; exact Bool.false_ne_true)

theorem edit_undo (can : buffer.tracker.canUndo = true) {history : History}
    (undone : buffer.history.undo? = some history) :
    buffer.edit .undo = (true, buffer.commit history buffer.tracker.undo) := by
  unfold edit
  dsimp only
  rw [if_pos can, undone]
  rfl

theorem edit_redo_of_not (nothing : buffer.tracker.canRedo = false) :
    buffer.edit .redo = (false, buffer) := by
  unfold edit
  exact if_neg (by rw [nothing]; exact Bool.false_ne_true)

theorem edit_redo (can : buffer.tracker.canRedo = true) {history : History}
    (redone : buffer.history.redo? = some history) :
    buffer.edit .redo = (true, buffer.commit history buffer.tracker.redo) := by
  unfold edit
  dsimp only
  rw [if_pos can, redone]
  rfl

/-- A new change leads back to the text that it was made in, and nothing can be made again. -/
theorem Leads.splice (leads : buffer.Leads earlier later) {start stop : Nat}
    (ordered : start ≤ stop) (within : start ≤ buffer.text.length) (inserted : Text) :
    (buffer.commit (buffer.history.splice start stop inserted) buffer.tracker.finish).Leads
      (buffer.text :: earlier) [] := by
  have turns := buffer.history.turns_splice ordered within inserted
  rw [← buffer.history.text_splice ordered within inserted] at turns
  refine leads_commit (.step turns.inverse leads.back) (.done _) ?_
  rw [leads.tracker_eq]
  rfl

/-- One edit from a buffer that follows its timeline. -/
structure Meets (outcome : Bool × Buffer) (outcome' : Bool × Timeline) : Prop where
  answer_eq : outcome.1 = outcome'.1
  follows : outcome.2.Follows outcome'.2

theorem Leads.meets_splice (leads : buffer.Leads earlier later) {start stop : Nat}
    (ordered : start ≤ stop) (within : start ≤ buffer.text.length) {inserted text : Text}
    (made : (buffer.history.splice start stop inserted).text = text) :
    Meets (true, buffer.commit (buffer.history.splice start stop inserted) buffer.tracker.finish)
      (true, (Timeline.around earlier buffer.text later).record text) := by
  refine ⟨rfl, _, _, leads.splice ordered within inserted, ?_⟩
  dsimp only
  rw [Timeline.record_around, text_eq_history (commit _ _ _), history_commit, made]

theorem Leads.meets_replace (leads : buffer.Leads earlier later) (region : Region)
    (inserted : Text) :
    Meets (true, buffer.commit (buffer.history.replace region inserted) buffer.tracker.finish)
      (true, (Timeline.around earlier buffer.text later).record (Source.replaced
        (Timeline.around earlier buffer.text later).present region inserted)) := by
  rw [Timeline.present_around]
  exact leads.meets_splice (Nat.le_max_left _ _) (buffer.history.index_le _)
    (buffer.history.text_replace region inserted)

theorem Leads.meets_undo (leads : buffer.Leads earlier later) :
    Meets (buffer.edit .undo) (Timeline.around earlier buffer.text later).back := by
  cases earlier with
  | nil =>
      rw [edit_undo_of_not (by rw [leads.tracker_eq]; rfl)]
      exact ⟨rfl, [], later, leads, rfl⟩
  | cons text earlier =>
      have can : buffer.tracker.canUndo = true := by
        rw [leads.tracker_eq]
        exact decide_eq_true (Nat.succ_pos _)
      obtain ⟨back, forth, counted⟩ := leads
      generalize changes : buffer.history.done.map Change.inverse = inverses at back
      cases back with
      | step turns rest =>
          obtain ⟨change, done, made, rfl, rfl⟩ := List.map_eq_cons_iff.mp changes
          have undone : buffer.history.undo? =
              some ⟨text, change :: buffer.history.undone, done⟩ := by
            unfold History.undo?
            rw [made]
            exact congrArg (fun text => some (History.mk text _ _)) turns.apply
          rw [edit_undo can undone, Timeline.back_around_cons]
          refine ⟨rfl, earlier, buffer.text :: later, ?_, ?_⟩
          · refine leads_commit rest (.step turns.inverse forth) ?_
            rw [counted]
            rfl
          · rw [text_eq_history (commit _ _ _), history_commit]

theorem Leads.meets_redo (leads : buffer.Leads earlier later) :
    Meets (buffer.edit .redo) (Timeline.around earlier buffer.text later).forth := by
  cases later with
  | nil =>
      rw [edit_redo_of_not (by rw [leads.tracker_eq]; rfl), Timeline.forth_around_nil]
      exact ⟨rfl, earlier, [], leads, rfl⟩
  | cons text later =>
      have can : buffer.tracker.canRedo = true := by
        rw [leads.tracker_eq]
        exact decide_eq_true (Nat.succ_pos _)
      obtain ⟨back, forth, counted⟩ := leads
      generalize changes : buffer.history.undone = undone at forth
      cases forth with
      | @step change undone _ _ _ turns rest =>
          have redone : buffer.history.redo? =
              some ⟨text, undone, change :: buffer.history.done⟩ := by
            unfold History.redo?
            rw [changes]
            exact congrArg (fun text => some (History.mk text _ _)) turns.apply
          rw [edit_redo can redone, Timeline.forth_around_cons]
          refine ⟨rfl, buffer.text :: earlier, later, ?_, ?_⟩
          · refine leads_commit (.step turns.inverse back) rest ?_
            rw [counted]
            rfl
          · rw [text_eq_history (commit _ _ _), history_commit]

/-- Every edit does to the buffer what it does to its timeline. -/
theorem Follows.meets (follows : buffer.Follows timeline) (edit : Edit) :
    Meets (buffer.edit edit) (timeline.edit edit) := by
  obtain ⟨earlier, later, leads, rfl⟩ := follows
  cases edit with
  | insert location inserted =>
      have meets := leads.meets_replace ⟨location, location⟩ inserted
      rw [← History.insert_eq_replace] at meets
      exact meets
  | replace region inserted => exact leads.meets_replace region inserted
  | remove region => exact leads.meets_replace region []
  | replaceAll text =>
      exact leads.meets_splice (Nat.zero_le _) (Nat.zero_le _)
        (buffer.history.text_replaceAll text)
  | undo => exact leads.meets_undo
  | redo => exact leads.meets_redo

theorem Follows.run (follows : buffer.Follows timeline) (edits : List Edit) :
    (buffer.run edits).Follows (timeline.run edits) := by
  induction edits generalizing buffer timeline with
  | nil => exact follows
  | cons edit rest ih => exact ih (follows.meets edit).follows

/-- A new buffer has a single text. -/
theorem follows_ofText (text : Text) : (ofText text).Follows (.ofText text) :=
  ⟨[], [], ⟨.done text, .done text, rfl⟩, rfl⟩

/-! ## What is seen of a buffer -/

/--
All that is seen of a buffer is what its timeline shows: the text, how often an edit can be
undone and made again, and what the next edit answers.  What the next undo or redo takes
away stands where it is taken away.
-/
structure Shows (buffer : Buffer) (timeline : Timeline) : Prop where
  text_eq : buffer.text = timeline.present
  undoLevels_eq : buffer.tracker.undoLevels = timeline.cursor
  redoLevels_eq : buffer.tracker.redoLevels = timeline.ahead
  canUndo_iff : buffer.tracker.canUndo = true ↔ 0 < timeline.cursor
  canRedo_iff : buffer.tracker.canRedo = true ↔ 0 < timeline.ahead
  answer_eq : ∀ edit, (buffer.edit edit).1 = (timeline.edit edit).1
  undoes : ∀ change ∈ buffer.history.done.head?, ∃ former, change.Turns former buffer.text
  redoes : ∀ change ∈ buffer.history.undone.head?, ∃ next, change.Turns buffer.text next

theorem Follows.shows (follows : buffer.Follows timeline) : buffer.Shows timeline := by
  have meets := follows.meets
  obtain ⟨earlier, later, leads, rfl⟩ := follows
  have counted := leads.tracker_eq
  refine ⟨(Timeline.present_around _ _ _).symm, ?_, ?_, ?_, ?_, fun edit => (meets edit).answer_eq,
    ?_, ?_⟩
  · rw [counted]
    rfl
  · rw [counted, Timeline.ahead_around]
  · rw [counted]
    exact decide_eq_true_iff
  · rw [counted, Timeline.ahead_around]
    exact decide_eq_true_iff
  · intro change latest
    have first : change.inverse ∈ (buffer.history.done.map Change.inverse).head? := by
      rw [List.head?_map]
      exact Option.mem_map_of_mem _ latest
    obtain ⟨former, turns⟩ := leads.back.turns first
    exact ⟨former, turns.inverse⟩
  · exact fun change first => leads.forth.turns first

/--
Whatever edits are made of a text, at whatever locations, the buffer shows the timeline on
which the same edits were made.
-/
theorem shows_run (text : Text) (edits : List Edit) :
    ((ofText text).run edits).Shows ((Timeline.ofText text).run edits) :=
  ((follows_ofText text).run edits).shows

end Buffer

end PageDesigner
