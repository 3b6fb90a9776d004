import PageDesigner.Proofs.Text.Source

/-!
# Entries laid out in a text

Many things that are read from a text take a part of it each, one behind the other, while
what stands between them belongs to none.  `LaidOut` says this of a list of entries, for
whatever it means that an entry stands somewhere.  From it follows all that one wants to
know about their order: they do not overlap, they are in the order of the text
(`LaidOut.pairwise`), and each is where it says it is (`LaidOut.exists_part`).
-/

namespace PageDesigner

/-- Entries that stand in a text one behind the other, with gaps in between. -/
inductive LaidOut {α : Type} (stands : Location → Text → α → Prop) :
    Location → Text → List α → Prop
  | nil (location : Location) (text : Text) : LaidOut stands location text []
  | cons {location : Location} (gap : Text) {part rest : Text} {entry : α} {entries : List α}
      (here : stands (location.advance gap) part entry)
      (later : LaidOut stands ((location.advance gap).advance part) rest entries) :
      LaidOut stands location (gap ++ (part ++ rest)) (entry :: entries)

namespace LaidOut

variable {α : Type} {stands : Location → Text → α → Prop} {location : Location}
  {front back text part : Text} {entry : α} {entries others : List α}

theorem single (here : stands location part entry) : LaidOut stands location part [entry] := by
  have alone : LaidOut stands location ([] ++ (part ++ [])) [entry] := .cons [] here (.nil _ _)
  rw [List.append_nil] at alone
  exact alone

/-- Entries can stand behind anything. -/
theorem behind (front : Text) (laid : LaidOut stands (location.advance front) text entries) :
    LaidOut stands location (front ++ text) entries := by
  cases laid with
  | nil => exact .nil _ _
  | cons gap here later =>
      rw [← Location.advance_append location front gap] at here later
      rw [← List.append_assoc]
      exact .cons (front ++ gap) here later

theorem append (first : LaidOut stands location front entries)
    (second : LaidOut stands (location.advance front) back others) :
    LaidOut stands location (front ++ back) (entries ++ others) := by
  induction first with
  | nil location front => exact second.behind front
  | cons gap here later ih =>
      rw [List.append_assoc, List.append_assoc]
      refine .cons gap here (ih ?_)
      rw [Location.advance_append, Location.advance_append] at second
      exact second

/-- Anything can stand behind entries. -/
theorem inFrontOf (laid : LaidOut stands location front entries) (back : Text) :
    LaidOut stands location (front ++ back) entries := by
  have whole := laid.append (.nil _ back)
  rw [List.append_nil] at whole
  exact whole

/-- Entries that are left out leave a gap. -/
theorem sublist (laid : LaidOut stands location text entries) (fewer : others.Sublist entries) :
    LaidOut stands location text others := by
  induction laid generalizing others with
  | nil =>
      rw [List.sublist_nil.mp fewer]
      exact .nil _ _
  | @cons location gap part rest entry entries here later ih =>
      cases fewer with
      | cons _ fewer =>
          rw [← List.append_assoc]
          refine LaidOut.behind (gap ++ part) ?_
          rw [Location.advance_append]
          exact ih fewer
      | cons_cons _ fewer => exact .cons gap here (ih fewer)

/-- Each entry has a part of the text. -/
theorem exists_part (laid : LaidOut stands location text entries) (member : entry ∈ entries) :
    ∃ front part back, text = front ++ (part ++ back) ∧
      stands (location.advance front) part entry := by
  induction laid with
  | nil => cases member
  | @cons location gap part rest other entries here later ih =>
      rcases List.mem_cons.mp member with rfl | member
      · exact ⟨gap, part, rest, rfl, here⟩
      · obtain ⟨front, part', back, rfl, there⟩ := ih member
        refine ⟨gap ++ (part ++ front), part', back, by simp, ?_⟩
        rw [Location.advance_append, Location.advance_append]
        exact there

section

variable {region : α → Region}
  (covers : ∀ location part entry, stands location part entry →
    region entry = ⟨location, location.advance part⟩)

include covers

/-- Each entry lies between the ends of the text. -/
theorem within (laid : LaidOut stands location text entries) (member : entry ∈ entries) :
    location ≤ (region entry).first ∧ (region entry).last ≤ location.advance text := by
  obtain ⟨front, part, back, rfl, here⟩ := laid.exists_part member
  rw [covers _ _ _ here, Location.advance_append, Location.advance_append]
  exact ⟨Location.le_advance _ _, Location.le_advance _ _⟩

/-- No entry reaches into one behind it. -/
theorem pairwise (laid : LaidOut stands location text entries) :
    entries.Pairwise fun entry other => (region entry).last ≤ (region other).first := by
  induction laid with
  | nil => exact .nil
  | cons gap here later ih =>
      refine .cons (fun other member => ?_) ih
      rw [covers _ _ _ here]
      exact (later.within covers member).1

end

end LaidOut

end PageDesigner
