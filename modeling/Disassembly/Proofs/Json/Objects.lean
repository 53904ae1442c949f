import Disassembly.Proofs.Json.Brackets
/-!
# Objects of the grammar, read

The members of an object are what stands between its brackets, so a form that takes them in reads
the object, whatever the blanks. What is written for an object is one of the grammar, in either
layout.
-/
namespace Disassembly.Json

variable {σ : Type} {text rest : List Char} {members : List Member} {inside : Blanks}

/-! ### What stands between the brackets -/

theorem intercalate_cons_flatMap (separator : Char) (item : List Char) (items : List (List Char)) :
    [separator].intercalate (item :: items) = item ++ items.flatMap (separator :: ·) := by
  induction items generalizing item with
  | nil => rw [List.intercalate_singleton, List.flatMap_nil, List.append_nil]
  | cons next items ih =>
    rw [List.intercalate_cons_cons, ih, List.flatMap_cons, List.append_assoc]
    rfl

theorem Member.starts (member : Member) : Starts member.item := ⟨_, _, rfl, rfl, by decide⟩

theorem Member.skip (member : Member) (rest : List Char) :
    skipBlanks (member.text ++ rest) = member.item ++ (member.after.text ++ rest) := by
  rw [Member.text, List.append_assoc, List.append_assoc, member.starts.skip]

theorem trails_members (members : List Member) (after inside : Blanks) (rest : List Char) :
    Trails '\x7d' rest (members.map Member.item)
      (after.text ++ ((members.map Member.text).flatMap (',' :: ·) ++
        (inside.text ++ '\x7d' :: rest))) := by
  induction members generalizing after with
  | nil =>
    refine .done ?_
    rw [after.skip, List.map_nil, List.flatMap_nil, List.nil_append, inside.skip]
    exact skipBlanks_cons rfl rest
  | cons member members ih =>
    rw [List.map_cons, List.map_cons, List.flatMap_cons, List.cons_append, List.cons_append,
      List.append_assoc]
    exact .more ((after.skip _).trans (skipBlanks_cons rfl _)) (member.skip _) (ih member.after)

theorem listed_members (members : List Member) (inside : Blanks) (rest : List Char) :
    ∃ listed, objectText members inside ++ rest = '\x7b' :: listed ∧
      Listed '\x7d' rest (members.map Member.item) listed := by
  refine ⟨[','].intercalate (members.map Member.text) ++ (inside.text ++ '\x7d' :: rest), ?_, ?_⟩
  · simp [objectText]
  · cases members with
    | nil =>
      refine .empty ?_
      rw [List.map_nil, List.intercalate_nil, List.nil_append, inside.skip]
      exact skipBlanks_cons rfl rest
    | cons member members =>
      rw [List.map_cons, List.map_cons, intercalate_cons_flatMap, List.append_assoc]
      exact .first (member.skip _) (trails_members members member.after inside rest)

theorem ObjectText.exists_skip (h : ObjectText members text) :
    ∃ inside after : Blanks, skipBlanks text = objectText members inside ++ after.text := by
  obtain ⟨before, inside, after, rfl⟩ := h
  refine ⟨inside, after, ?_⟩
  rw [before.skip]
  exact skipBlanks_cons rfl _

/-- A form that takes in the members of an object reads it, whatever its blanks. -/
theorem Form.read_objectText {form : Form σ} {final : σ}
    (hmembers : TakesAll form form.start (members.map Member.item) final)
    (htext : skipBlanks text = objectText members inside ++ rest) :
    form.read text = .ok (final, rest) := by
  obtain ⟨listed, hopening, hlisted⟩ := listed_members members inside rest
  exact form.read_listed hmembers (htext.trans hopening) hlisted

/-! ### Written objects -/

structure Member.Gives (member : Member) (given : String × Value) : Prop where
  name : member.name = given.1.toList.flatMap escapeChar
  value : ∃ layout, member.value = write layout given.2

def Layout.indent (layout : Layout) : Blanks := ⟨layout.line, isBlank_of_mem_line⟩

def Member.written (layout : Layout) (given : String × Value) : Member where
  before := layout.indent
  name := given.1.toList.flatMap escapeChar
  behind := .none
  between := layout.gap
  value := write layout given.2
  after := .none

theorem Member.gives_written (layout : Layout) (given : String × Value) :
    (Member.written layout given).Gives given := ⟨rfl, layout, rfl⟩

theorem Member.Gives.item {member : Member} {given : String × Value} (h : member.Gives given) :
    member.item = quoted given.1 ++ member.tail := by
  rw [Member.item, h.name, quoted_append]

theorem writeMembers_eq_map (layout : Layout) (given : List (String × Value)) :
    writeMembers layout given = (given.map (Member.written layout)).map Member.item := by
  induction given with
  | nil => rfl
  | cons given rest ih =>
    rw [writeMembers, ih, List.map_cons, List.map_cons, (Member.gives_written layout given).item]
    simp [Member.written, Member.tail, Layout.colon_eq, Blanks.none]

theorem write_object (layout : Layout) (given : List (String × Value)) :
    ∃ inside, write layout (.object given) =
      objectText (given.map (Member.written layout.inner)) inside := by
  rw [write, writeMembers_eq_map]
  cases given with
  | nil => exact ⟨.none, rfl⟩
  | cons given rest =>
    refine ⟨layout.indent, ?_⟩
    rw [objectText, List.map_cons, List.map_cons, List.map_cons, intercalate_cons_flatMap]
    simp [bracketed, Member.text, Member.written, Layout.indent, Blanks.none, List.flatMap_map]

end Disassembly.Json
