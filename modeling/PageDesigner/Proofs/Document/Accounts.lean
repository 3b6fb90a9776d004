import PageDesigner.Proofs.Document.Convergence
import PageDesigner.Proofs.Document.Issues
import PageDesigner.Proofs.Document.Upkeep
import PageDesigner.Proofs.Surface.Deselecting

/-!
# The accounts of a pass

A pass reports the components that it destroys and creates.  Striking the former off the table of
before and adding the latter behind gives the table that the pass leaves (`ScanPass.Accounts`).

A pass destroys before it creates, tag after tag, so this depends on no component being created and
destroyed again in the same scan.  The reason is that a component is created for the first tag that
has its name (`Registry.claimant?`), and no tag behind takes it for another type.  What a pass
destroys for a tag it creates again at once, as a component of the type of the tag
(`ScanPass.Records`).
-/

namespace PageDesigner

/-! ## The tag that a name stands for -/

namespace Registry

/-- The type of a tag, if it is known and the tag has a name for its id. -/
def claims? (registry : Registry) (name : Text) (tag : Tag) : Option ControlType :=
  if tag.id?.any (·.sameName name) then registry.resolve? tag.name else none

/-- The type of the first tag of a known type that has a name for its id. -/
def claimant? (registry : Registry) (tags : List Tag) (name : Text) : Option ControlType :=
  tags.findSome? (registry.claims? name)

variable {registry : Registry} {name : Text}

theorem claims?_congr {name' : Text} (same : name.sameName name' = true) (tag : Tag) :
    registry.claims? name tag = registry.claims? name' tag := by
  unfold claims?
  simp only [Text.sameName_congr same]

theorem claimant?_congr {name' : Text} (same : name.sameName name' = true) (tags : List Tag) :
    registry.claimant? tags name = registry.claimant? tags name' := by
  unfold claimant?
  congr 1
  funext tag
  exact claims?_congr same tag

theorem claimant?_append (former latter : List Tag) :
    registry.claimant? (former ++ latter) name =
      (registry.claimant? former name).or (registry.claimant? latter name) :=
  List.findSome?_append

theorem claimant?_cons (tag : Tag) (rest : List Tag) :
    registry.claimant? (tag :: rest) name =
      (registry.claims? name tag).or (registry.claimant? rest name) := by
  unfold claimant?
  rw [List.findSome?_cons]
  cases registry.claims? name tag <;> rfl

theorem claims?_of_named {tag : Tag} {id : Text} (named : tag.id? = some id)
    (same : id.sameName name = true) : registry.claims? name tag = registry.resolve? tag.name := by
  unfold claims?
  rw [named, Option.any_some, if_pos same]

/-- A name that some tag claims is one of the ids that a pass claims. -/
theorem lower_mem_claims {elements : List Element} {controlType : ControlType}
    (claims : registry.claimant? (elements.map (·.toTag)) name = some controlType) :
    name.lower ∈ (ScanPass.claims registry elements).map Text.lower := by
  obtain ⟨tag, member, here⟩ := List.exists_of_findSome?_eq_some claims
  obtain ⟨element, sited, rfl⟩ := List.mem_map.mp member
  unfold claims? at here
  cases named : element.id? with
  | none => rw [named] at here; cases here
  | some id =>
      rw [named, Option.any_some] at here
      split at here
      · next same =>
          have claimed : id ∈ ScanPass.claims registry elements := by
            refine List.mem_filterMap.mpr ⟨element, sited, ?_⟩
            rw [here, Option.bind_some, named]
          rw [← Text.sameName_iff.mp same]
          exact List.mem_map_of_mem claimed
      · cases here

/-- A name that no tag claims is none of the ids that a pass claims. -/
theorem lower_not_mem_claims {elements : List Element}
    (unclaimed : registry.claimant? (elements.map (·.toTag)) name = none) :
    name.lower ∉ (ScanPass.claims registry elements).map Text.lower := by
  intro member
  obtain ⟨id, claimed, same⟩ := List.mem_map.mp member
  obtain ⟨element, sited, here⟩ := List.mem_filterMap.mp claimed
  obtain ⟨controlType, resolved, named⟩ := Option.bind_eq_some_iff.mp here
  have none' := List.findSome?_eq_none_iff.mp unclaimed element.toTag (List.mem_map_of_mem sited)
  rw [claims?_of_named named (Text.sameName_iff.mpr same), resolved] at none'
  cases none'

/-- Only the names and the ids of the tags count. -/
theorem claimant?_of_profiles {document document' : Document} {tags tags' : List Tag}
    (same : tags'.map document'.profile = tags.map document.profile) :
    registry.claimant? tags' name = registry.claimant? tags name := by
  have said : ∀ (document : Document) (tags : List Tag), registry.claimant? tags name =
      (tags.map document.profile).findSome? fun profile =>
        if (Entry.id? profile.entries).any (·.sameName name) then registry.resolve? profile.name
        else none := by
    intro document tags
    rw [List.findSome?_map]
    unfold claimant?
    congr 1
    funext tag
    unfold claims?
    rw [← Tag.id?_entries]
    rfl
  rw [said document', same, ← said document]

end Registry

namespace ScanPass

/-! ## The accounts of a pass -/

/-- An entry of the table for which the first tag with its name stands. -/
structure Answered (registry : Registry) (tags : List Tag) (base : Surface)
    (entry : Text × Text) : Prop where
  valid : Naming.isValid entry.1 = true
  notRoot : base.isRoot entry.1 = false
  claimant : (registry.claimant? tags entry.1).map (·.name) = some entry.2

/-- The table of a pass is the one of before, without what is reported as destroyed and with
what is reported as created, for which the first tags of their names stand. -/
structure Accounts (registry : Registry) (tags : List Tag) (base : Surface) (pass : ScanPass) :
    Prop where
  root?_eq : pass.surface.root? = base.root?
  table_eq : pass.surface.container.table =
    base.container.table.filter (·.1 ∉ pass.report.removed) ++ pass.report.created
  former : ∀ name ∈ pass.report.removed,
    base.isRoot name = false ∧ name ∈ base.container.names
  answered : ∀ entry ∈ pass.report.created, Answered registry tags base entry

namespace Accounts

variable {registry : Registry} {tags : List Tag} {base : Surface} {pass after : ScanPass}

theorem isRoot_eq (accounts : Accounts registry tags base pass) (name : Text) :
    pass.surface.isRoot name = base.isRoot name := by
  unfold Surface.isRoot
  rw [accounts.root?_eq]

/-- What changes neither the table nor the report. -/
theorem resting (accounts : Accounts registry tags base pass)
    (root : after.surface.root? = pass.surface.root?)
    (table : after.surface.container.table = pass.surface.container.table)
    (created : after.report.created = pass.report.created)
    (removed : after.report.removed = pass.report.removed) :
    Accounts registry tags base after := by
  refine ⟨root.trans accounts.root?_eq, ?_, ?_, ?_⟩
  · rw [table, created, removed]
    exact accounts.table_eq
  · rw [removed]
    exact accounts.former
  · rw [created]
    exact accounts.answered

/-- A component is created for the first tag with its name. -/
theorem creating (accounts : Accounts registry tags base pass) {controlType : ControlType}
    {id : Text} (answered : Answered registry tags base (id, controlType.name))
    (element : Element) :
    Accounts registry tags base (pass.creating controlType id element) := by
  have type : ((Component.fresh controlType).readTag element false).1.controlType = controlType :=
    Component.controlType_readTag _ _ _
  refine ⟨(Surface.root?_place _ _ _).trans accounts.root?_eq, ?_, accounts.former, ?_⟩
  · show (pass.surface.place id _).container.table =
      base.container.table.filter (·.1 ∉ pass.report.removed) ++ (pass.report.created ++ _)
    rw [Surface.table_place, type, accounts.table_eq, List.append_assoc]
  · intro other member
    rcases List.mem_append.mp member with before | last
    · exact accounts.answered other before
    · rw [List.mem_singleton.mp last]
      exact answered

/-- A component that the scan has not created is destroyed. -/
theorem destroying (accounts : Accounts registry tags base pass)
    (distinct : pass.surface.container.Distinct) {name : Text}
    (stored : name ∈ pass.surface.container.names) (notRoot : pass.surface.isRoot name = false)
    (apart : ∀ entry ∈ pass.report.created, entry.1 ≠ name) :
    Accounts registry tags base (pass.destroying name) := by
  have kept : pass.report.created.filter (·.1 ≠ name) = pass.report.created :=
    List.filter_eq_self.mpr fun entry member => decide_eq_true (apart entry member)
  refine ⟨(Surface.root?_withoutControl _ _).trans accounts.root?_eq, ?_, ?_, accounts.answered⟩
  · show (pass.surface.withoutControl name).container.table =
      base.container.table.filter (·.1 ∉ pass.report.removed ++ [name]) ++ pass.report.created
    rw [Surface.table_withoutControl distinct stored, accounts.table_eq, List.filter_append, kept,
      List.filter_filter]
    congr 1
    refine List.filter_congr fun entry _ => ?_
    simp [not_or, and_comm]
  · intro other member
    rcases List.mem_append.mp member with before | last
    · exact accounts.former other before
    · rw [List.mem_singleton.mp last]
      refine ⟨(accounts.isRoot_eq name).symm.trans notRoot, ?_⟩
      rw [Container.names_eq_table, accounts.table_eq] at stored
      rw [Container.names_eq_table]
      obtain ⟨entry, listed, rfl⟩ := List.mem_map.mp stored
      rcases List.mem_append.mp listed with old | new
      · exact List.mem_map_of_mem (List.mem_filter.mp old).1
      · exact absurd rfl (apart entry new)

end Accounts

/-- A pass with its accounts that has created again whatever it has destroyed, and never of the same
type.  Each of the components was deselected when it was destroyed. -/
structure Records (registry : Registry) (tags : List Tag) (base : Surface) (pass : ScanPass) :
    Prop extends Accounts registry tags base pass where
  selection_eq : pass.surface.selection = base.selection.withoutAll pass.report.removed
  recreated : ∀ entry ∈ base.container.table, entry.1 ∈ pass.report.removed →
    ∃ other ∈ pass.report.created, other.1.sameName entry.1 = true ∧ other.2 ≠ entry.2

namespace Records

variable {registry : Registry} {tags : List Tag} {base : Surface} {pass after : ScanPass}

/-- What changes neither the table nor the selection nor the report. -/
theorem resting (records : Records registry tags base pass)
    (root : after.surface.root? = pass.surface.root?)
    (table : after.surface.container.table = pass.surface.container.table)
    (selection : after.surface.selection = pass.surface.selection)
    (created : after.report.created = pass.report.created)
    (removed : after.report.removed = pass.report.removed) :
    Records registry tags base after := by
  refine ⟨records.toAccounts.resting root table created removed, ?_, ?_⟩
  · rw [selection, removed]
    exact records.selection_eq
  · rw [created, removed]
    exact records.recreated

/-- With distinct names, no component has been created that was there before. -/
theorem fresh (records : Records registry tags base pass)
    (distinct : pass.surface.container.Distinct) {entry : Text × Text}
    (before : entry ∈ base.container.table) : entry ∉ pass.report.created := by
  intro new
  have unrepeated := Container.distinct_iff_table.mp distinct
  rw [records.table_eq] at unrepeated
  by_cases struck : entry.1 ∈ pass.report.removed
  · obtain ⟨other, listed, same, differs⟩ := records.recreated entry before struck
    have twice := List.inj_on_of_nodup_map unrepeated (List.mem_append_right _ listed)
      (List.mem_append_right _ new) (Text.sameName_iff.mp same)
    exact differs (congrArg Prod.snd twice)
  · rw [List.map_append] at unrepeated
    refine List.disjoint_of_nodup_append unrepeated (List.mem_map_of_mem ?_)
      (List.mem_map_of_mem new)
    exact List.mem_filter.mpr ⟨before, decide_eq_true struck⟩

/-- A pass with records has exchanged components. -/
theorem exchanged (records : Records registry tags base pass)
    (distinct : pass.surface.container.Distinct) :
    base.Exchanged pass.report.removed pass.report.created pass.surface :=
  ⟨records.table_eq, fun name member => (records.former name member).2,
    fun _ before => records.fresh distinct before, records.selection_eq⟩

end Records

/-! ## One tag

One lemma for each case of `Settled`.
-/

namespace Records

variable {registry : Registry} {tags : List Tag} {base : Surface}
  {pass after : ScanPass} {controlType : ControlType} {id : Text} {element : Element}

theorem claiming (records : Records registry tags base pass) (id : Text) :
    Records registry tags base (pass.claiming id) :=
  records.resting rfl rfl rfl rfl rfl

theorem creating (records : Records registry tags base pass)
    (answered : Answered registry tags base (id, controlType.name)) (element : Element) :
    Records registry tags base (pass.creating controlType id element) := by
  refine ⟨records.toAccounts.creating answered element, ?_, ?_⟩
  · exact (Surface.selection_place _ _ _).trans records.selection_eq
  · intro entry before struck
    obtain ⟨other, listed, new⟩ := records.recreated entry before struck
    exact ⟨other, List.mem_append_left _ listed, new⟩

theorem applying (records : Records registry tags base pass) {component : Component}
    (found : pass.surface.container.get? id = some component) (element : Element) :
    Records registry tags base (pass.applying id component element) := by
  refine records.resting rfl (Container.table_update fun other there => ?_) rfl rfl rfl
  obtain rfl := Option.some.inj (found.symm.trans there)
  exact Component.controlType_readTag component element true

/-- A component of another type than the first tag with its name is destroyed and created again. -/
theorem replacing (records : Records registry tags base pass)
    (distinct : pass.surface.container.Distinct) (notRoot : pass.surface.isRoot id = false)
    (answered : Answered registry tags base (id, controlType.name)) {site : Site}
    (found : pass.surface.container.site? id = some site)
    (otherType : site.component.controlType.name ≠ controlType.name) (element : Element) :
    Records registry tags base ((pass.destroying site.name).creating controlType id element) := by
  have same := Container.sameName_of_site? found
  have sited := Container.mem_of_site? found
  have differs : ∀ {type : Text}, (site.name, type) ∈ pass.surface.container.table →
      type ≠ controlType.name := by
    intro type listed sameType
    exact otherType ((Container.type_of_mem_table distinct sited listed).symm.trans sameType)
  -- A component that this scan has created is of the type of the first tag.
  have apart : ∀ entry ∈ pass.report.created, entry.1 ≠ site.name := by
    rintro ⟨name, created⟩ member rfl
    have listed : (site.name, created) ∈ pass.surface.container.table := by
      rw [records.table_eq]
      exact List.mem_append_right _ member
    have claimant := (records.answered _ member).claimant
    rw [Registry.claimant?_congr same, answered.claimant] at claimant
    exact differs listed (Option.some.inj claimant).symm
  have struck := records.toAccounts.destroying distinct (List.mem_map_of_mem sited)
    ((Surface.isRoot_congr same).trans notRoot) apart
  refine ⟨struck.creating answered element, ?_, ?_⟩
  · show (Surface.place (pass.surface.withoutControl site.name) id _).selection =
      base.selection.withoutAll (pass.report.removed ++ [site.name])
    rw [Surface.selection_place, Selection.withoutAll_snoc, ← records.selection_eq]
    exact Surface.selection_withoutControl _ _
  · intro entry before gone
    by_cases former : entry.1 ∈ pass.report.removed
    · obtain ⟨other, listed, new⟩ := records.recreated entry before former
      exact ⟨other, List.mem_append_left _ listed, new⟩
    · -- It has just been destroyed, since it is not of the type of the tag.
      have here : entry.1 = site.name :=
        List.mem_singleton.mp ((List.mem_append.mp gone).resolve_left former)
      have listed : (site.name, entry.2) ∈ pass.surface.container.table := by
        rw [records.table_eq, ← here]
        exact List.mem_append_left _ (List.mem_filter.mpr ⟨before, decide_eq_true former⟩)
      refine ⟨_, List.mem_append_right _ (List.mem_singleton_self _), ?_, (differs listed).symm⟩
      rw [here, Text.sameName_comm]
      exact same

/-- The component of a tag that is the first one with its id is settled. -/
theorem settled {mode : ScanMode} (records : Records registry tags base pass)
    (distinct : pass.surface.container.Distinct) (valid : Naming.isValid id = true)
    (notRoot : pass.surface.isRoot id = false)
    (first : registry.claimant? tags id = some controlType)
    (settled : Settled mode controlType id element pass after) :
    Records registry tags base after := by
  have answered : Answered registry tags base (id, controlType.name) :=
    ⟨valid, (records.isRoot_eq id).symm.trans notRoot, by rw [first]; rfl⟩
  have claimed := records.claiming id
  cases settled with
  | created => exact claimed.creating answered element
  | kept => exact claimed
  | applied found => exact claimed.applying found element
  | replaced found otherType =>
      exact claimed.replacing distinct notRoot answered found otherType element

end Records

/-! ## All tags -/

section

variable {registry : Registry} {base : Surface} {pass final : ScanPass}

/-- No tag in front has the id of a tag with a usable id, so the tag is the first one. -/
theorem claimant?_usable {former latter : List Element} {element : Element}
    {controlType : ControlType} {id : Text}
    (resolved : registry.resolve? element.name = some controlType)
    (usable : pass.usableId? element.toTag = some id)
    (claimed : pass.claimed = (claims registry former).map Text.lower) :
    registry.claimant? ((former ++ element :: latter).map (·.toTag)) id = some controlType := by
  obtain ⟨named, _, fresh, _⟩ := usableId?_eq_some.mp usable
  rw [List.map_append, Registry.claimant?_append]
  cases claims : registry.claimant? (former.map (·.toTag)) id with
  | some other =>
      rw [claimed] at fresh
      exact absurd (Registry.lower_mem_claims claims) fresh
  | none =>
      rw [Option.none_or, List.map_cons, Registry.claimant?_cons,
        Registry.claims?_of_named named (Text.sameName_refl id), resolved]
      rfl

/-- A pass up to some tag, behind tags whose ids are claimed already. -/
theorem records_walk {mode : ScanMode} {former elements : List Element}
    (walk : Walk registry mode pass elements final) (latter : List Element)
    (distinct : pass.surface.container.Distinct)
    (records : Records registry ((former ++ (elements ++ latter)).map (·.toTag)) base pass)
    (claimed : pass.claimed = (claims registry former).map Text.lower) :
    Records registry ((former ++ (elements ++ latter)).map (·.toTag)) base final := by
  have behind (former : List Element) (element : Element) (rest : List Element) :
      former ++ (element :: rest ++ latter) = (former ++ [element]) ++ (rest ++ latter) := by simp
  have claims_snoc (former : List Element) (element : Element) :
      claims registry (former ++ [element]) =
        claims registry former ++ claims registry [element] := List.filterMap_append
  induction walk generalizing former with
  | done => exact records
  | unknown resolved _ _ ih =>
      rw [behind] at records ⊢
      refine ih distinct (records.resting rfl rfl rfl rfl rfl) ?_
      rw [claims_snoc, claims_cons_unknown resolved]
      simpa [claims] using claimed
  | known resolved usable settled _ ih =>
      obtain ⟨named, valid, _, notRoot⟩ := usableId?_eq_some.mp usable
      have records' := records.settled distinct valid notRoot
        (claimant?_usable resolved usable claimed) settled
      rw [behind] at records' ⊢
      refine ih (settled.settles.distinct distinct) records' ?_
      rw [claims_snoc, claims_cons_known resolved named, settled.claimed_eq, claimed]
      simp [claims]

/-- A pass keeps records, wherever it ends. -/
theorem records_visitAll {mode : ScanMode} {taken : List Text} {elements : List Element}
    {missing? : Option MissingId} (distinct : pass.surface.container.Distinct)
    (records : Records registry (elements.map (·.toTag)) base pass) (claimed : pass.claimed = [])
    (done : visitAll registry mode taken elements pass = .ok missing? final) :
    Records registry (elements.map (·.toTag)) base final := by
  obtain ⟨final', _, outcome⟩ := visitAll_cases registry mode taken elements distinct
  rcases outcome with ⟨walk, done'⟩ | ⟨former, element, latter, _, rfl, walk, _, _, done'⟩
  all_goals obtain ⟨-, rfl⟩ := EStateM.Result.ok.inj (done'.symm.trans done)
  · rw [← List.append_nil elements] at records ⊢
    exact @records_walk registry base pass final' mode [] elements walk [] distinct records claimed
  · exact @records_walk registry base pass final' mode [] former walk (element :: latter) distinct
      records claimed

/-- Destroying components deselects them. -/
theorem selection_forM_destroy {names : List Text}
    (deselected : pass.surface.selection = base.selection.withoutAll pass.report.removed)
    (done : names.forM destroy pass = .ok () final) :
    final.surface.selection = base.selection.withoutAll final.report.removed := by
  have keeps (name : Text) : Keeps (fun pass : ScanPass =>
      pass.surface.selection = base.selection.withoutAll pass.report.removed) (destroy name) := by
    refine .modify fun pass deselected => ?_
    cases destroyed : pass.surface.destroy? name with
    | none => exact deselected
    | some outcome =>
        obtain ⟨stored, surface⟩ := outcome
        dsimp only
        rw [Selection.withoutAll_snoc, ← deselected]
        exact Surface.selection_destroy? destroyed
  exact (Keeps.forM keeps names).ok deselected done

/-- Destroying components creates none. -/
theorem created_forM_destroy {names : List Text} (done : names.forM destroy pass = .ok () final) :
    final.report.created = pass.report.created := by
  have keeps (name : Text) : Keeps (fun final : ScanPass =>
      final.report.created = pass.report.created) (destroy name) := by
    refine .modify fun after same => ?_
    cases after.surface.destroy? name with
    | none => exact same
    | some outcome => exact same
  exact (Keeps.forM keeps names).ok rfl done

/-- Destroying components that the scan has not created. -/
theorem accounts_forM_destroy {tags : List Tag} {names : List Text}
    (distinct : pass.surface.container.Distinct) (accounts : Accounts registry tags base pass)
    (notRoot : ∀ name ∈ names, pass.surface.isRoot name = false)
    (apart : ∀ name ∈ names, ∀ entry ∈ pass.report.created, entry.1.sameName name = false)
    (done : names.forM destroy pass = .ok () final) : Accounts registry tags base final := by
  induction names generalizing pass with
  | nil =>
      obtain ⟨-, rfl⟩ := EStateM.Result.ok.inj done
      exact accounts
  | cons name rest ih =>
      obtain ⟨_, middle, destroyed, done⟩ := ok_of_bind done
      have notRoot' := notRoot name List.mem_cons_self
      have others := fun other member => notRoot other (List.mem_cons_of_mem name member)
      have apart' := fun other member => apart other (List.mem_cons_of_mem name member)
      simp only [destroy, modify_eq, Surface.destroy?_eq notRoot'] at destroyed
      cases found : pass.surface.container.site? name with
      | none =>
          rw [found] at destroyed
          obtain ⟨-, rfl⟩ := EStateM.Result.ok.inj destroyed
          exact ih distinct accounts others apart' done
      | some site =>
          rw [found] at destroyed
          obtain ⟨-, rfl⟩ := EStateM.Result.ok.inj destroyed
          have same := Container.sameName_of_site? found
          have stored : site.name ∈ pass.surface.container.names :=
            List.mem_map_of_mem (Container.mem_of_site? found)
          have destroyed' := accounts.destroying distinct stored
            ((Surface.isRoot_congr same).trans notRoot') (by
              intro entry member alike
              have differs := apart name List.mem_cons_self entry member
              rw [alike, same] at differs
              cases differs)
          refine ih (Surface.distinct_withoutControl distinct _) destroyed' ?_ apart' done
          intro other member
          exact (Surface.isRoot_withoutControl _ _ _).trans (others other member)

/-- Dropping the orphans of a pass destroys components without a tag, so none that it has
created. -/
theorem exchanged_dropOrphans {tags : List Tag} (distinct : pass.surface.container.Distinct)
    (records : Records registry tags base pass)
    (claimed : ∀ entry ∈ pass.report.created, entry.1.lower ∈ pass.claimed)
    (done : dropOrphans pass = .ok () final) :
    base.Exchanged final.report.removed final.report.created final.surface ∧
      ∀ name ∈ final.report.removed, base.isRoot name = false := by
  have orphan : ∀ name ∈ pass.orphans,
      pass.surface.isRoot name = false ∧ name.lower ∉ pass.claimed := by
    intro name member
    have orphan := (List.mem_filter.mp member).2
    simp only [Bool.and_eq_true, Bool.not_eq_true'] at orphan
    exact ⟨orphan.1, fun claimed => by
      rw [← List.contains_iff_mem, orphan.2] at claimed
      cases claimed⟩
  have drops : pass.orphans.forM destroy pass = .ok () final := done
  have accounts := accounts_forM_destroy distinct records.toAccounts
    (fun name member => (orphan name member).1) (fun name member entry created => by
      rw [Bool.eq_false_iff]
      intro same
      refine (orphan name member).2 ?_
      rw [← Text.sameName_iff.mp same]
      exact claimed entry created) drops
  refine ⟨⟨accounts.table_eq, fun name member => (accounts.former name member).2, ?_,
    selection_forM_destroy records.selection_eq drops⟩,
    fun name member => (accounts.former name member).1⟩
  rw [created_forM_destroy drops]
  exact fun entry before => records.fresh distinct before

end

end ScanPass

end PageDesigner
