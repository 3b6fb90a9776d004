import PageDesigner.Proofs.Document.Sound

/-!
# The kept tree is never stale

A parse looks for a tree that is still good, takes a snapshot of the text, marks the buffer
clean if its generation is still that of the snapshot, and keeps the tree of the snapshot.
Here each of these is a step of its own, and the text may be edited before any of them
(`Parsing.step`); with nothing in between they are `Document.parse` (`Parsing.parse_run`).

What each step hands on to the next is `Parsing.Stands`: behind a snapshot the buffer is of the
generation of the snapshot and has its text, or it is of a later one and dirty.  So a tree that
is kept too late is never used (`Parsing.fresh_run`).
-/

namespace PageDesigner

/-- How far a parse has come. -/
inductive Progress where
  | idle
  /-- The parse was called and has not looked for a tree yet. -/
  | called
  /-- There was no tree that could be used. -/
  | missed
  /-- The text was read. -/
  | read (snapshot : Snapshot)
  /-- The buffer was marked clean, or was not, as it is of a later generation. -/
  | marked (snapshot : Snapshot)
  deriving DecidableEq, Repr

/-- How many steps a parse has before it at most. -/
def Progress.left : Progress → Nat
  | .idle => 0
  | .marked _ => 1
  | .read _ => 2
  | .missed => 3
  | .called => 4

/-- What is done with a document; parses run one at a time. -/
inductive ParsingStep where
  | edit (edit : Edit)
  | markDirty
  /-- The next step of the parse in progress, or else a call. -/
  | parse
  deriving DecidableEq, Repr

/-- A document that is parsed while its text is edited. -/
structure Parsing where
  document : Document
  progress : Progress
  /-- The text at the last call and after each edit since. -/
  held : List Text
  /-- The trees that were returned, each with the texts held during the call. -/
  answers : List (Tree × List Text)

namespace Parsing

/-- A document that has not been parsed. -/
def start (document : Document) : Parsing := ⟨document, .idle, [document.text], []⟩

/-- Return a tree. -/
def answer (state : Parsing) (tree : Tree) : Parsing :=
  { state with progress := .idle, answers := state.answers ++ [(tree, state.held)] }

/-- Take the next step of a parse. -/
def advance (state : Parsing) : Parsing :=
  match state.progress with
  | .idle => { state with progress := .called, held := [state.document.text] }
  | .called =>
      match state.document.cached? with
      | some tree => state.answer tree
      | none => { state with progress := .missed }
  | .missed => { state with progress := .read state.document.buffer.snapshot }
  | .read snapshot =>
      let buffer := (state.document.buffer.markClean snapshot.generation).2
      { state with document := { state.document with buffer }, progress := .marked snapshot }
  | .marked snapshot =>
      let tree := Tree.parse snapshot.text
      { state with document := { state.document with cache? := some tree } }.answer tree

/-- Edit the text, ask for it to be parsed again, or go on with a parse. -/
def step (state : Parsing) : ParsingStep → Parsing
  | .edit edit =>
      let document := state.document.edited edit
      { state with document, held := state.held ++ [document.text] }
  | .markDirty =>
      { state with document := { state.document with buffer := state.document.buffer.markDirty } }
  | .parse => state.advance

/-- Take steps one after the other. -/
def run (state : Parsing) (steps : List ParsingStep) : Parsing := steps.foldl step state

variable {state : Parsing} {document : Document} {snapshot : Snapshot} {held : List Text}

/-! ## What a tree and a snapshot tell of the text -/

/-- A tree that would be used is the tree of the text. -/
def Coherent (document : Document) : Prop :=
  ∀ tree, document.cached? = some tree → tree = Tree.parse document.text

/-- The buffer has the text of a snapshot, or it is dirty and of a later generation. -/
structure Follows (buffer : Buffer) (snapshot : Snapshot) : Prop where
  le : snapshot.generation ≤ buffer.generation
  text_eq : buffer.generation = snapshot.generation → buffer.text = snapshot.text
  isDirty_eq : snapshot.generation < buffer.generation → buffer.isDirty = true

/-- How a document stands to the text that a parse has read. -/
def Stands (document : Document) (held : List Text) : Progress → Prop
  | .idle | .called => Coherent document
  | .missed => True
  | .read snapshot => snapshot.text ∈ held ∧ Follows document.buffer snapshot
  | .marked snapshot =>
      snapshot.text ∈ held ∧ (document.buffer.isDirty = false → document.text = snapshot.text)

theorem coherent_of_isDirty (dirty : document.buffer.isDirty = true) : Coherent document := by
  intro tree found
  rw [Document.cached?_of_isDirty dirty] at found
  cases found

theorem follows_snapshot (buffer : Buffer) : Follows buffer buffer.snapshot where
  le := Nat.le_refl _
  text_eq := fun _ => rfl
  isDirty_eq := fun later => absurd later (Nat.lt_irrefl _)

/-- An edit begins a later generation. -/
theorem Follows.advance {buffer after : Buffer} (follows : Follows buffer snapshot)
    (advances : buffer.Advances after) : Follows after snapshot := by
  have le := follows.le
  have generation_eq := advances.generation_eq
  constructor
  · omega
  · omega
  · exact fun _ => advances.isDirty_eq

/-- Only the text of the buffer's own generation is marked clean. -/
theorem Follows.markClean {buffer : Buffer} (follows : Follows buffer snapshot)
    (clean : (buffer.markClean snapshot.generation).2.isDirty = false) :
    (buffer.markClean snapshot.generation).2.text = snapshot.text := by
  unfold Buffer.markClean at clean ⊢
  split at clean
  next same =>
    rw [if_pos same]
    exact follows.text_eq same
  next other =>
    have later := follows.isDirty_eq (Nat.lt_of_le_of_ne follows.le (Ne.symm other))
    rw [later] at clean
    cases clean

/-- A document that is dirty stands well to all that was read before. -/
theorem Stands.of_isDirty {after : Document} {others : List Text} {progress : Progress}
    (stands : Stands document held progress) (dirty : after.buffer.isDirty = true)
    (within : ∀ text ∈ held, text ∈ others)
    (follows : ∀ snapshot, Follows document.buffer snapshot → Follows after.buffer snapshot) :
    Stands after others progress := by
  cases progress with
  | idle => exact coherent_of_isDirty dirty
  | called => exact coherent_of_isDirty dirty
  | missed => trivial
  | read snapshot => exact ⟨within _ stands.1, follows snapshot stands.2⟩
  | marked snapshot =>
      refine ⟨within _ stands.1, fun clean => ?_⟩
      rw [dirty] at clean
      cases clean

theorem Stands.mono {others : List Text} {progress : Progress}
    (stands : Stands document held progress) (within : ∀ text ∈ held, text ∈ others) :
    Stands document others progress := by
  cases progress with
  | idle => exact stands
  | called => exact stands
  | missed => trivial
  | read snapshot => exact ⟨within _ stands.1, stands.2⟩
  | marked snapshot => exact ⟨within _ stands.1, stands.2⟩

/-! ## Steps -/

/-- What holds while a document is parsed and edited. -/
structure Kept (state : Parsing) : Prop where
  current : state.document.text ∈ state.held
  stands : Stands state.document state.held state.progress
  answered : ∀ answer ∈ state.answers, ∃ text ∈ answer.2, answer.1 = Tree.parse text

theorem Kept.answer (kept : state.Kept) (coherent : Coherent state.document) {text : Text}
    (read : text ∈ state.held) : (state.answer (Tree.parse text)).Kept := by
  refine ⟨kept.current, coherent, fun given among => ?_⟩
  obtain before | here := List.mem_append.mp among
  · exact kept.answered given before
  · rw [List.mem_singleton.mp here]
    exact ⟨text, read, rfl⟩

theorem Kept.edit (kept : state.Kept) (edit : Edit) : (state.step (.edit edit)).Kept := by
  have within : ∀ text ∈ state.held,
      text ∈ state.held ++ [(state.document.edited edit).text] :=
    fun text among => List.mem_append_left _ among
  refine ⟨List.mem_append_right _ (List.mem_singleton_self _), ?_, kept.answered⟩
  obtain advances | same := state.document.edited_cases edit
  · exact kept.stands.of_isDirty advances.isDirty_eq within fun _ follows =>
      follows.advance advances
  · unfold Parsing.step
    dsimp only
    rw [same] at within ⊢
    exact kept.stands.mono within

theorem Kept.markDirty (kept : state.Kept) : (state.step .markDirty).Kept := by
  refine ⟨kept.current, ?_, kept.answered⟩
  refine kept.stands.of_isDirty rfl (fun _ among => among) fun snapshot follows => ?_
  exact ⟨follows.le, follows.text_eq, fun _ => rfl⟩

theorem Kept.advance (kept : state.Kept) : state.advance.Kept := by
  obtain ⟨document, progress, held, answers⟩ := state
  have stands := kept.stands
  cases progress with
  | idle => exact ⟨List.mem_singleton_self _, stands, kept.answered⟩
  | called =>
      cases found : document.cached? with
      | some tree =>
          unfold Parsing.advance
          dsimp only
          rw [found]
          dsimp only
          rw [stands tree found]
          exact kept.answer stands kept.current
      | none =>
          unfold Parsing.advance
          dsimp only
          rw [found]
          exact ⟨kept.current, trivial, kept.answered⟩
  | missed => exact ⟨kept.current, ⟨kept.current, follows_snapshot _⟩, kept.answered⟩
  | read snapshot =>
      refine ⟨?_, ⟨stands.1, stands.2.markClean⟩, kept.answered⟩
      have current := kept.current
      unfold Parsing.advance Buffer.markClean Document.text
      dsimp only
      split <;> exact current
  | marked snapshot =>
      have coherent : Coherent { document with cache? := some (Tree.parse snapshot.text) } := by
        intro tree found
        unfold Document.cached? at found
        dsimp only at found
        split at found
        next => cases found
        next clean =>
          have text_eq := stands.2 (Bool.eq_false_iff.mpr clean)
          rw [← Option.some.inj found, ← text_eq]
          rfl
      have stored : Kept ⟨{ document with cache? := some (Tree.parse snapshot.text) },
          .marked snapshot, held, answers⟩ := ⟨kept.current, stands, kept.answered⟩
      exact stored.answer coherent stands.1

theorem Kept.step (kept : state.Kept) (step : ParsingStep) : (state.step step).Kept := by
  cases step with
  | edit edit => exact kept.edit edit
  | markDirty => exact kept.markDirty
  | parse => exact kept.advance

theorem Kept.run (kept : state.Kept) (steps : List ParsingStep) : (state.run steps).Kept := by
  induction steps generalizing state with
  | nil => exact kept
  | cons step rest ih => exact ih (kept.step step)

theorem kept_start (uncached : document.cache? = none) :
    (start document).Kept := by
  refine ⟨List.mem_singleton_self _, fun tree found => ?_, nofun⟩
  have nothing : document.cached? = none := by
    unfold Document.cached?
    rw [uncached, ite_self]
  rw [start, nothing] at found
  cases found

/-! ## A parse comes to an end -/

/-- Each step of a parse returns a tree or leaves one step less to take. -/
theorem advance_cases (called : state.progress ≠ .idle) :
    (∃ tree, state.advance.answers = state.answers ++ [(tree, state.held)]) ∨
      state.advance.answers = state.answers ∧ state.advance.progress ≠ .idle ∧
        state.advance.progress.left + 1 = state.progress.left := by
  obtain ⟨document, progress, held, answers⟩ := state
  cases progress with
  | idle => exact absurd rfl called
  | called =>
      unfold advance
      dsimp only
      cases document.cached? with
      | some tree => exact .inl ⟨tree, rfl⟩
      | none => exact .inr ⟨rfl, nofun, rfl⟩
  | missed => exact .inr ⟨rfl, nofun, rfl⟩
  | read snapshot => exact .inr ⟨rfl, nofun, rfl⟩
  | marked snapshot => exact .inl ⟨Tree.parse snapshot.text, rfl⟩

theorem length_answers_step (state : Parsing) (step : ParsingStep) :
    state.answers.length ≤ (state.step step).answers.length := by
  cases step with
  | edit edit => exact Nat.le_refl _
  | markDirty => exact Nat.le_refl _
  | parse =>
      change _ ≤ state.advance.answers.length
      by_cases called : state.progress = .idle
      · have same : state.advance.answers = state.answers := by
          unfold advance
          rw [called]
        exact Nat.le_of_eq (congrArg List.length same.symm)
      · obtain ⟨tree, answered⟩ | ⟨same, -⟩ := advance_cases called
        · rw [answered, List.length_append]
          exact Nat.le_add_right _ _
        · exact Nat.le_of_eq (congrArg List.length same.symm)

theorem length_answers_run (state : Parsing) (steps : List ParsingStep) :
    state.answers.length ≤ (state.run steps).answers.length := by
  induction steps generalizing state with
  | nil => exact Nat.le_refl _
  | cons step rest ih =>
      exact Nat.le_trans (length_answers_step state step) (ih (state.step step))

/-- A parse returns once its steps are taken, whatever is done in between. -/
theorem returns_run (state : Parsing) {steps : List ParsingStep} (called : state.progress ≠ .idle)
    (enough : state.progress.left ≤ steps.count .parse) :
    state.answers.length < (state.run steps).answers.length := by
  induction steps generalizing state with
  | nil =>
      rw [List.count_nil] at enough
      cases progress : state.progress with
      | idle => exact absurd progress called
      | called | missed | read | marked =>
          rw [progress, Progress.left] at enough
          omega
  | cons step rest ih =>
      cases step with
      | edit edit => exact ih (state.step (.edit edit)) called enough
      | markDirty => exact ih (state.step .markDirty) called enough
      | parse =>
          rw [List.count_cons_self] at enough
          change _ < (state.advance.run rest).answers.length
          obtain ⟨tree, answered⟩ | ⟨same, going, left⟩ := advance_cases called
          · have later := length_answers_run state.advance rest
            rw [answered, List.length_append, List.length_singleton] at later
            omega
          · rw [← same]
            exact ih state.advance going (by omega)

/-- With nothing in between, the steps of a parse are the parse of the document. -/
theorem parse_run (idle : state.progress = .idle) :
    ∃ count, state.run (List.replicate count .parse) =
      ⟨state.document.parse.2, .idle, [state.document.text],
        state.answers ++ [(state.document.parse.1, [state.document.text])]⟩ := by
  obtain ⟨document, progress, held, answers⟩ := state
  cases idle
  cases found : document.cached? with
  | some tree =>
      refine ⟨2, ?_⟩
      simp only [Document.parse, found, run, List.replicate, List.foldl, step, advance, answer]
  | none =>
      refine ⟨5, ?_⟩
      simp only [Document.parse, Document.keep, found, run, List.replicate, List.foldl, step,
        advance, answer]

/-! ## Whole runs -/

/-- What a document that is parsed and edited has shown so far, and what it will show. -/
structure Fresh (state : Parsing) : Prop where
  /-- Each tree that was returned is the tree of a text that the buffer held during the call. -/
  answered : ∀ tree held, (tree, held) ∈ state.answers → ∃ text ∈ held, tree = Tree.parse text
  /-- While no parse is in progress, a tree that is kept for a clean buffer is that of its text. -/
  current : state.progress = .idle → state.document.buffer.isDirty = false →
    ∀ tree, state.document.cache? = some tree → tree = Tree.parse state.document.text
  /-- A parse in progress returns a tree once its steps are taken. -/
  returns : state.progress ≠ .idle → ∀ steps, state.progress.left ≤ steps.count .parse →
    state.answers.length < (state.run steps).answers.length

/-- Wherever the edits fall, no parse returns a stale tree and none is kept. -/
theorem fresh_run (registry : Registry) (designers : DesignerRegistry) (options : Options)
    (text : Text) (steps : List ParsingStep) :
    ((start (.ofText registry designers options text)).run steps).Fresh := by
  have started : (start (.ofText registry designers options text)).Kept := kept_start rfl
  have kept := started.run steps
  refine ⟨fun tree held among => kept.answered _ among, fun idle clean tree found => ?_,
    fun called rest enough => returns_run _ called enough⟩
  have stands := kept.stands
  rw [idle] at stands
  refine stands tree ?_
  unfold Document.cached?
  rw [clean]
  exact found

end Parsing

end PageDesigner
