import PageDesigner.Proofs.Document.Removal
import PageDesigner.Proofs.Host.Succeeding

/-!
# Removing components

Removing a component cuts its tag out of the text and takes it off the surface
(`destroy_cases`).  The selected components are removed one after the other, and what was
removed before a failure stays removed (`destroyEach_cases`).
-/

namespace PageDesigner.Host

variable {registry : Registry} {host after : Host} {document : Document}

/-! ## One component -/

/-- Removing the tag of a component cuts it out, if there is one, and fails if it does not end. -/
theorem removeTagOf_cases (kept : host.document? = some document) (sound : document.Sound)
    (name : Text) :
    ∃ document', document'.surface = document.surface ∧
      ((document'.text = Tree.cutOut name document.text ∧
          removeTagOf name host = .ok () { host with document? := some document' }) ∨
        ∃ element, (Tree.parse document.text).control? name = some element ∧
          element.outer? = none ∧ document'.text = document.text ∧
          removeTagOf name host =
            .error (.unterminatedTag element.name.text element.region.first)
              { host with document? := some document' }) := by
  obtain ⟨document', surface, ⟨missing, text, ran⟩ | ⟨element, found, outcome⟩⟩ :=
    Document.removeTag_cases sound name
  · refine ⟨document', surface, .inl ⟨?_, ?_⟩⟩
    · unfold Tree.cutOut
      rw [Tree.cut?_of_no_control missing, text]
    · unfold removeTagOf
      rw [bind_of_ok (attempt_of_error (onDocument_of_error kept ran))]
      rfl
  · rcases outcome with ⟨endless, text, ran⟩ | ⟨text, ran⟩
    · refine ⟨document', surface, .inr ⟨element, found, endless, text, ?_⟩⟩
      unfold removeTagOf
      rw [bind_of_ok (attempt_of_error (onDocument_of_error kept ran))]
      rfl
    · refine ⟨document', surface, .inl ⟨text, ?_⟩⟩
      unfold removeTagOf
      rw [bind_of_ok (attempt_of_ok (onDocument_of_ok kept ran))]
      rfl

/-- The host after the component of a name was taken off the surface of its document, which has
been left with a text. -/
structure Loses (host : Host) (document : Document) (name text : Text) (after : Host)
    (document' : Document) : Prop where
  beside : host.Beside after
  kept : after.document? = some document'
  text_eq : document'.text = text
  typedNames_eq : document'.surface.typedNames =
    document.surface.typedNames.filter (!·.1.sameName name)
  root?_eq : document.surface.isRoot name = false →
    document'.surface.root? = document.surface.root?

/-- A component that is there can be destroyed. -/
theorem exists_loses (kept : host.document? = some document)
    (distinct : document.surface.container.Distinct) {name : Text} {site : Site}
    (found : document.surface.container.site? name = some site) :
    ∃ after document', (do
        match ← onDocument (Document.destroy site.name) with
        | some removed => tell [.removed removed]
        | none => pure () : Action Unit) host = .ok () after ∧
      Loses host document name document.text after document' := by
  obtain ⟨surface, destroys, typedNames, root⟩ := Surface.exists_destroyed distinct found
  have ran : Document.destroy site.name document =
      .ok (some site.name) { document with surface } := by
    unfold Document.destroy
    simp only [bind, EStateM.bind, get_eq, destroys]
    rfl
  refine ⟨{ host with
      document? := some { document with surface }
      events := host.events ++ [.removed site.name] }, { document with surface }, ?_,
    ⟨⟨_, _, rfl⟩, rfl, rfl, typedNames, root⟩⟩
  rw [bind_of_ok (onDocument_of_ok kept ran)]
  rfl

/-- In a settled host, destroying a component removes it with its tag, or leaves it since its tag
does not end; the root has no tag. -/
theorem destroy_cases (settles : host.waiting = []) (kept : host.document? = some document)
    (sound : document.Sound) {name : Text}
    (sited : document.surface.container.contains name = true) :
    (∃ after document', destroy name host = .ok () after ∧
        Loses host document name (if document.surface.isRoot name then document.text
          else Tree.cutOut name document.text) after document') ∨
      ∃ element document', document.surface.isRoot name = false ∧
        (Tree.parse document.text).control? name = some element ∧ element.outer? = none ∧
        document'.text = document.text ∧ document'.surface = document.surface ∧
        destroy name host = .error (.unterminatedTag element.name.text element.region.first)
          { host with document? := some document' } := by
  obtain ⟨site, found⟩ := Option.isSome_iff_exists.mp sited
  have same := Container.sameName_of_site? found
  have settled : settle host = .ok () host := by
    have same := settle_settled host
    rw [settled_of_waiting settles] at same
    exact same
  have loads := loaded_eq host
  rw [kept] at loads
  have stands : document.surface.container.storedName? name = some site.name := by
    unfold Container.storedName?
    rw [found]
    rfl
  unfold destroy
  rw [bind_of_ok settled, bind_of_ok loads, stands]
  dsimp only
  rw [Surface.isRoot_congr same]
  cases root : document.surface.isRoot name with
  | true => exact .inl (exists_loses kept sound.distinct found)
  | false =>
      obtain ⟨middle, surface, ⟨text, ran⟩ | ⟨element, named, endless, text, ran⟩⟩ :=
        removeTagOf_cases kept sound site.name
      · have found' : middle.surface.container.site? name = some site := by rw [surface, found]
        obtain ⟨after, document', ran', ⟨_, _, rfl⟩, kept', text', typedNames, root'⟩ :=
          @exists_loses { host with document? := some middle } middle rfl
            (by rw [surface]; exact sound.distinct) name site found'
        rw [text, Tree.cutOut_congr same] at text'
        rw [surface] at typedNames root'
        exact .inl ⟨_, document', (bind_of_ok ran _).trans ran', ⟨_, _, rfl⟩, kept', text',
          typedNames, root'⟩
      · right
        refine ⟨element, middle, rfl, ?_, endless, text, surface, bind_of_error ran _⟩
        unfold Tree.control? at named ⊢
        simp only [Tree.isControlNamed_congr same] at named
        exact named

/-! ## One component after the other -/

/-- The host after the controls of some names were removed from its document. -/
structure LosesEach (host : Host) (document : Document) (names : List Text) (after : Host)
    (document' : Document) : Prop where
  beside : host.Beside after
  kept : after.document? = some document'
  without : Document.Without names document document'

theorem LosesEach.cons {middle : Host} {document' document'' : Document} {name : Text}
    {names : List Text} (notRoot : document.surface.isRoot name = false)
    (loses : Loses host document name (Tree.cutOut name document.text) middle document')
    (others : LosesEach middle document' names after document'') :
    LosesEach host document (name :: names) after document'' := by
  obtain ⟨⟨_, _, rfl⟩, -, text, typedNames, root⟩ := loses
  obtain ⟨⟨_, _, rfl⟩, kept, without⟩ := others
  exact ⟨⟨_, _, rfl⟩, kept, .cons text typedNames (root notRoot) without⟩

/-- The first name behind those that were removed is that of a control whose tag does not end. -/
def StopsBehind (removed names : List Text) (document : Document) (failure : DesignError) : Prop :=
  ∃ name others element, names = removed ++ name :: others ∧
    (Tree.parse document.text).control? name = some element ∧ element.outer? = none ∧
    failure = .unterminatedTag element.name.text element.region.first

/-- In a settled host, the controls of the names are removed one after the other, up to the first
one whose tag does not end. -/
theorem destroyEach_cases (regular : registry.Regular) (orderly : host.Orderly registry)
    (settles : host.waiting = []) (kept : host.document? = some document) (names : List Text) :
    (∃ after document', destroyEach names host = .ok (document.surface.removable names) after ∧
        LosesEach host document (document.surface.removable names) after document') ∨
      ∃ failure removed after document', destroyEach names host = .error failure after ∧
        LosesEach host document removed after document' ∧
        StopsBehind removed (document.surface.removable names) document' failure := by
  induction names generalizing host document with
  | nil => exact .inl ⟨host, document, rfl, .refl host, kept, .nil rfl rfl⟩
  | cons name rest ih =>
      have loads := loaded_eq host
      rw [kept] at loads
      unfold destroyEach Surface.removable
      rw [bind_of_ok loads]
      by_cases stays : (document.surface.isRoot name ||
          !document.surface.container.contains name) = true
      · rw [if_pos stays, if_pos stays]
        exact ih orderly settles kept
      rw [if_neg stays, if_neg stays]
      simp only [Bool.or_eq_true, Bool.not_eq_true', not_or, Bool.not_eq_true,
        Bool.not_eq_false] at stays
      obtain ⟨notRoot, sited⟩ := stays
      have sound := (orderly.document document kept).sound
      rcases destroy_cases settles kept sound sited with
        ⟨middle, document', ran, loses⟩ |
        ⟨element, document', -, named, endless, text, surface, ran⟩
      · rw [if_neg (by rw [notRoot]; exact Bool.false_ne_true)] at loses
        have orderly' : middle.Orderly registry := (keeps_destroy regular name).ok orderly ran
        have settles' : middle.waiting = [] := by
          obtain ⟨_, _, rfl⟩ := loses.beside
          exact settles
        have later := ih orderly' settles' loses.kept
        rw [Surface.removable_destroyed loses.typedNames_eq (loses.root?_eq notRoot)] at later
        rcases later with ⟨after, document'', ran', others⟩ |
          ⟨failure, removed, after, document'', ran', others, next, behind, element, split, ends⟩
        · left
          refine ⟨after, document'', ?_, .cons notRoot loses others⟩
          rw [bind_of_ok ran, bind_of_ok ran']
          rfl
        · right
          refine ⟨failure, name :: removed, after, document'', ?_, .cons notRoot loses others,
            next, behind, element, by rw [split]; rfl, ends⟩
          rw [bind_of_ok ran]
          exact bind_of_error ran' _
      · right
        refine ⟨_, [], _, document', bind_of_error ran _, ⟨⟨_, _, rfl⟩, rfl, .nil text surface⟩,
          name, _, element, rfl, ?_, endless, rfl⟩
        rw [text]
        exact named

/-! ## The selected components -/

/-- The selected controls of a host with a document are removed, up to the first one whose tag does
not end. -/
theorem removeSelected_cases (regular : registry.Regular) (orderly : host.Orderly registry)
    (kept : host.settled.document? = some document) :
    (∃ after document', removeSelected host = .ok document.doomed after ∧
        after.document? = some document' ∧ Document.Without document.doomed document document') ∨
      ∃ failure removed after document', removeSelected host = .error failure after ∧
        after.document? = some document' ∧
        after.transactions.frames = host.settled.transactions.frames ∧
        Document.Without removed document document' ∧
        StopsBehind removed document.doomed document' failure := by
  have quiet : (host.settled.opened "Remove selected controls").waiting = [] :=
    waiting_settled host
  have orderly' := (orderly_settled regular orderly).opened "Remove selected controls"
  have loads := loaded_eq host.settled
  rw [kept] at loads
  unfold removeSelected
  rw [bind_of_ok (settle_of_kept kept), bind_of_ok loads]
  rcases destroyEach_cases regular orderly' quiet kept
      document.surface.selection.names.reverse with
    ⟨middle, document', ran, loses⟩ | ⟨failure, removed, middle, document', ran, loses, stops⟩
  · obtain ⟨after, done, same⟩ := withTransaction_of_ok rfl loses.beside ran
    exact .inl ⟨after, document', done, same.trans loses.kept, loses.without⟩
  · obtain ⟨after, failed, same, frames⟩ := withTransaction_of_error rfl loses.beside ran
    exact .inr ⟨failure, removed, after, document', failed, same.trans loses.kept, frames,
      loses.without, stops⟩

/--
Removing the selection succeeds and takes away just the selected controls, or fails at the
first of them, the last selected first, whose tag does not end.  Then those before it are
gone all the same, so that the text and the components are what they were only if there are
none before it.
-/
theorem removed_of_removeSelected (regular : registry.Regular) {designers : DesignerRegistry}
    {options : Options} (reaches : Reaches registry designers options host)
    (loaded : host.document?.isSome = true) :
    ∃ document, host.settled.document? = some document ∧
      ((∃ after document', removeSelected host = .ok document.doomed after ∧
          after.document? = some document' ∧
          Document.Without document.doomed document document' ∧
          document'.surface.typedNames = document.surface.typedNames.filter fun typed =>
            document.surface.isRoot typed.1 ||
              !document.surface.selection.contains typed.1) ∨
        ∃ failure removed after document', removeSelected host = .error failure after ∧
          after.document? = some document' ∧
          after.transactions.frames = host.transactions.frames ∧
          Document.Without removed document document' ∧
          StopsBehind removed document.doomed document' failure ∧
          ((document'.text = document.text ∧
              document'.surface.typedNames = document.surface.typedNames) ↔ removed = [])) := by
  obtain ⟨former, kept⟩ := Option.isSome_iff_exists.mp loaded
  obtain ⟨events, settles⟩ := settled_eq kept
  have orderly := orderly_of_reaches regular reaches
  generalize host.waiting.foldl refreshed former = document at settles
  have kept' : host.settled.document? = some document := by rw [settles]
  refine ⟨document, kept', ?_⟩
  rcases removeSelected_cases regular orderly kept' with
    ⟨after, document', done, last, without⟩ |
    ⟨failure, removed, after, document', failed, last, frames, without, stops⟩
  · exact .inl ⟨after, document', done, last, without, without.typedNames_doomed⟩
  · rw [settles] at frames
    refine .inr ⟨failure, removed, after, document', failed, last, frames, without, stops, ?_, ?_⟩
    · rintro ⟨-, same⟩
      obtain ⟨name, others, element, split, -⟩ := stops
      refine without.eq_nil_of_same (fun name member => ?_) same
      have doomed : name ∈ document.doomed := by
        rw [split]
        exact List.mem_append_left _ member
      exact (Surface.sited_of_mem_removable doomed).1
    · rintro rfl
      exact ⟨without.text_eq, without.typedNames_eq.trans (List.filter_eq_self.mpr fun _ _ => rfl)⟩

/-- A label without a closing tag and a button in it, both of which are selected. -/
def unclosed : Host :=
  runAll [.load "<asp:Label id=\"A\" runat=\"server\"><asp:Button id=\"B\" runat=\"server\" />",
    .select ["A", "B"] 0] (new .standard .standard .standard)

/-- The button is gone when the label turns out to have no closing tag. -/
theorem removed_of_removeSelected_unclosed :
    ∃ document failure removed after document', unclosed.settled.document? = some document ∧
      removeSelected unclosed = .error failure after ∧ after.document? = some document' ∧
      Document.Without removed document document' ∧
      StopsBehind removed document.doomed document' failure ∧ removed ≠ [] := by
  have fails : failsWith (fun _ after =>
      after.document?.map (·.text) ≠ unclosed.settled.document?.map (·.text))
      removeSelected unclosed = true := by decide +kernel
  obtain ⟨failure, after, failed, changed⟩ := exists_of_failsWith fails
  obtain ⟨document, kept, outcome⟩ := @removed_of_removeSelected .standard unclosed
    (by decide +kernel) _ _ (reaches_runAll _ .refl) (by decide +kernel)
  rcases outcome with ⟨after', document', done, _⟩ |
    ⟨failure', removed, after', document', failed', last, -, without, stops, same⟩
  · rw [done] at failed
    cases failed
  · rw [failed'] at failed
    obtain ⟨rfl, rfl⟩ := EStateM.Result.error.inj failed
    refine ⟨document, failure', removed, after', document', kept, failed', last, without, stops, ?_⟩
    intro none'
    rw [last, kept, Option.map_some, Option.map_some, (same.mpr none').1] at changed
    simp at changed

/-! ## Tags that are left -/

/-- The operations that remove components with their tags. -/
inductive Removal where
  | destroy (name : Text)
  | remove (name : Text)
  | selected
  deriving DecidableEq, Repr

/-- Remove components; gives the names that were asked for. -/
def Removal.run : Removal → Action (List Text)
  | destroy name => do
      Host.destroy name
      pure [name]
  | remove name => do
      Host.remove name
      pure [name]
  | selected => removeSelected

/-- The document after the components of some names were removed; the root has no tag. -/
structure Removed (document : Document) (names : List Text) (after : Document) : Prop where
  text_eq : after.text =
    Tree.cutOutAll (names.filter (!document.surface.isRoot ·)) document.text
  typedNames_eq : after.surface.typedNames =
    document.surface.typedNames.filter fun typed => !Naming.isTaken names typed.1

/-- What is destroyed was there. -/
theorem sited_of_destroy {name : Text} (done : destroy name host = .ok () after) :
    ∃ document, host.settled.document? = some document ∧
      document.surface.container.contains name = true := by
  obtain ⟨document, kept, ends⟩ := ok_of_loaded (ok_of_settle done)
  refine ⟨document, kept, ?_⟩
  cases found : document.surface.container.site? name with
  | none =>
      unfold Container.storedName? at ends
      rw [found] at ends
      cases ends
  | some site =>
      unfold Container.contains
      rw [found]
      rfl

/-- Destroying a component removes its name and its tag, once the refreshes that wait are done. -/
theorem removed_of_destroy (regular : registry.Regular) (orderly : host.Orderly registry)
    {name : Text} (done : destroy name host = .ok () after) :
    ∃ document document', host.settled.document? = some document ∧
      after.document? = some document' ∧ host.settled.Beside after ∧
      Removed document [name] document' := by
  obtain ⟨document, kept, sited⟩ := sited_of_destroy done
  have again : destroy name host = destroy name host.settled := by
    unfold destroy
    rw [bind_of_ok (settle_of_kept kept), bind_of_ok (settle_settled host)]
  have sound := ((orderly_settled regular orderly).document document kept).sound
  rcases destroy_cases (waiting_settled host) kept sound sited with
    ⟨last, document', done', loses⟩ | ⟨_, _, _, _, _, _, _, failed⟩
  · obtain ⟨-, rfl⟩ := EStateM.Result.ok.inj ((again.trans done').symm.trans done)
    refine ⟨document, document', kept, loses.kept, loses.beside, ?_, ?_⟩
    · rw [loses.text_eq]
      cases root : document.surface.isRoot name <;> simp [root, Tree.cutOutAll]
    · rw [loses.typedNames_eq]
      refine List.filter_congr fun typed _ => ?_
      rw [Text.sameName_comm]
      simp [Naming.isTaken]
  · cases (again.trans failed).symm.trans done

/-- Removing controls one after the other. -/
theorem Removed.of_without {names : List Text} {document' : Document}
    (notRoot : ∀ name ∈ names, document.surface.isRoot name = false)
    (without : Document.Without names document document') : Removed document names document' := by
  refine ⟨?_, without.typedNames_eq⟩
  rw [without.text_eq, List.filter_eq_self.mpr fun name member => by rw [notRoot name member]; rfl]

/-- What is removed loses its name and its tag, and nothing else loses its name. -/
theorem removed_of_removal (regular : registry.Regular) (orderly : host.Orderly registry)
    {former : Document} (kept : host.document? = some former) {removal : Removal}
    {names : List Text} (done : removal.run host = .ok names after) :
    ∃ document document', host.settled.document? = some document ∧
      after.document? = some document' ∧ Removed document names document' := by
  cases removal with
  | destroy name =>
      obtain ⟨_, _, ran, ends⟩ := ok_of_bind done
      obtain ⟨rfl, rfl⟩ := EStateM.Result.ok.inj ends
      obtain ⟨document, document', kept, last, -, removed⟩ :=
        removed_of_destroy regular orderly ran
      exact ⟨document, document', kept, last, removed⟩
  | remove name =>
      obtain ⟨_, last, ran, ends⟩ := ok_of_bind done
      obtain ⟨rfl, rfl⟩ := EStateM.Result.ok.inj ends
      obtain ⟨middle, ran'⟩ := work_of_withTransaction ran
      obtain ⟨document, document', kept', last', beside, removed⟩ :=
        removed_of_destroy regular (orderly.opened _) ran'
      -- The refreshes that wait are done inside the transaction.
      obtain ⟨same, opened⟩ := settled_opened kept ("Remove " ++ name)
      rw [same] at kept'
      obtain ⟨_, done', document⟩ := @withTransaction_of_ok host _ _ _ _ { host with waiting := [] }
        _ rfl (opened.trans beside) ran'
      obtain ⟨-, rfl⟩ := EStateM.Result.ok.inj (done'.symm.trans ran)
      exact ⟨_, document', kept', document.trans last', removed⟩
  | selected =>
      obtain ⟨document, kept, -⟩ := ok_of_loaded (ok_of_settle done)
      rcases removeSelected_cases regular orderly kept with
        ⟨last, document', done', last', without⟩ | ⟨_, _, _, _, failed, _⟩
      · obtain ⟨rfl, rfl⟩ := EStateM.Result.ok.inj (done'.symm.trans done)
        exact ⟨document, document', kept, last', .of_without
          (fun name member => (Surface.sited_of_mem_removable member).2) without⟩
      · cases failed.symm.trans done

/-- The tags that are cut out with the components of some names, each with the tree it is cut out
of. -/
def cuts (document : Document) (names : List Text) : List (Text × Tree) :=
  Tree.cutStages (names.filter (!document.surface.isRoot ·)) document.text

/-- Whether every component but the root has a tag with its name in the text. -/
def isTaggedThroughout (document : Document) : Bool :=
  document.surface.typedNames.all fun typed =>
    document.surface.isRoot typed.1 || document.isTagged typed.1

/--
A component that is left when others were removed still has a tag, provided that each time a
tag of it stood outside the element that was cut out.  A component whose only tag stands
inside such an element is left without a tag.  The components had tags before, and no cut
joined what stands around it to another tag.
-/
theorem isTagged_of_removal (regular : registry.Regular) {designers : DesignerRegistry}
    {options : Options} (reaches : Reaches registry designers options host)
    (loaded : host.document?.isSome = true) {removal : Removal} {names : List Text}
    (done : removal.run host = .ok names after) :
    ∃ document document', host.settled.document? = some document ∧
      after.document? = some document' ∧ Removed document names document' ∧
      (isTaggedThroughout document = true →
        (∀ cut ∈ cuts document names, cut.2.cutsCleanly cut.1 = true) →
        ∀ typed ∈ document'.surface.typedNames, document.surface.isRoot typed.1 = false →
          (document'.isTagged typed.1 = true ↔
            ∀ cut ∈ cuts document names, cut.2.spares cut.1 typed.1 = true)) := by
  obtain ⟨former, kept⟩ := Option.isSome_iff_exists.mp loaded
  obtain ⟨document, document', kept', last, removed⟩ :=
    removed_of_removal regular (orderly_of_reaches regular reaches) kept done
  refine ⟨document, document', kept', last, removed, ?_⟩
  intro tagged cleanly typed member notRoot
  rw [removed.typedNames_eq] at member
  have before := List.all_eq_true.mp tagged typed (List.mem_filter.mp member).1
  rw [notRoot, Bool.false_or] at before
  unfold Document.isTagged at before ⊢
  rw [removed.text_eq, Tree.hasControl_cutOutAll cleanly, and_iff_right before]
  rfl

/-- A label with a button in it. -/
def nested : Host :=
  runAll [.load ("<asp:Label id=\"A\" runat=\"server\">" ++
    "<asp:Button id=\"B\" runat=\"server\" /></asp:Label>")] (new .standard .standard .standard)

/-- The button stays when the label is destroyed, and its tag does not. -/
theorem isTagged_of_removal_nested :
    ∃ after document document', (Removal.destroy "A").run nested = .ok ["A"] after ∧
      nested.settled.document? = some document ∧ after.document? = some document' ∧
      isTaggedThroughout document = true ∧
      (∀ cut ∈ cuts document ["A"], cut.2.cutsCleanly cut.1 = true) ∧
      document'.names = ["Page1", "B"] ∧ document'.isTagged "B" = false ∧
      ¬ ∀ cut ∈ cuts document ["A"], cut.2.spares cut.1 "B" = true := by
  have goes : succeedsWith (fun names after =>
      names = (["A"] : List Text) && after.document?.any fun document' =>
        document'.names = (["Page1", "B"] : List Text) && !document'.isTagged "B")
      (Removal.destroy "A").run nested = true := by decide +kernel
  have was : nested.settled.document?.any (fun document => isTaggedThroughout document &&
      (cuts document ["A"]).all (fun cut => cut.2.cutsCleanly cut.1) &&
      !document.surface.isRoot "B") = true := by decide +kernel
  obtain ⟨gone, after, ran, checked⟩ := exists_of_succeedsWith goes
  simp only [Bool.and_eq_true, decide_eq_true_eq] at checked
  obtain ⟨rfl, left⟩ := checked
  obtain ⟨document, document', kept, last, -, tagged⟩ := @isTagged_of_removal .standard nested
    after (by decide +kernel) _ _ (reaches_runAll _ .refl) (by decide +kernel) _ _ ran
  rw [kept, Option.any_some] at was
  rw [last, Option.any_some] at left
  simp only [Bool.and_eq_true, Bool.not_eq_true', decide_eq_true_eq, List.all_eq_true] at was left
  obtain ⟨⟨throughout, cleanly⟩, notRoot⟩ := was
  obtain ⟨names, untagged⟩ := left
  refine ⟨after, document, document', ran, kept, last, throughout, cleanly, names, untagged, ?_⟩
  have sited : ("B" : Text) ∈ document'.surface.typedNames.map Prod.fst := by
    have same : document'.surface.typedNames.map Prod.fst = document'.names := by
      unfold Surface.typedNames
      rw [List.map_map]
      rfl
    rw [same, names]
    decide
  obtain ⟨typed, member, same⟩ := List.mem_map.mp sited
  have spared := tagged throughout cleanly typed member (by rw [same]; exact notRoot)
  rw [same] at spared
  rw [← spared, untagged]
  exact Bool.false_ne_true

end PageDesigner.Host
