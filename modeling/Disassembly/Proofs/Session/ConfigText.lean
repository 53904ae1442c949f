import Disassembly.Config
import Disassembly.Proofs.Json.Readings
import Disassembly.Proofs.Text.Flags
/-!
# Configurations, written and read back

A configuration is found in any object that gives its members, in whatever order and with whatever
blanks; a member whose value is the default one may be left out. No object is taken for a
configuration that has a member of another name, gives a member twice or does not give the family.
-/
namespace Disassembly.SessionConfig

open Json

variable {config : SessionConfig} {names : List String} {name : String} {draft next : Draft}

def members (config : SessionConfig) : List (String × Value) :=
  [("arch", .string config.arch.key)] ++
    (config.mode.map fun mode => ("mode", .string mode.text)).toList ++
    [("detail", .bool config.detail), ("syntax", .string config.dialect.key)]

theorem toJson_eq (config : SessionConfig) : config.toJson = .object config.members := rfl

def memberNames : List String := ["arch", "mode", "detail", "syntax"]

/-- A member that goes without saying: the value that is taken without it is the one it has. -/
def MayOmit (config : SessionConfig) (name : String) : Prop :=
  (name = "mode" ∧ config.mode = none) ∨ (name = "detail" ∧ config.detail = false) ∨
    (name = "syntax" ∧ config.dialect = .default)

theorem mem_members {given : String × Value} :
    given ∈ config.members ↔ given = ("arch", .string config.arch.key) ∨
      (∃ mode, config.mode = some mode ∧ given = ("mode", .string mode.text)) ∨
      given = ("detail", .bool config.detail) ∨ given = ("syntax", .string config.dialect.key) := by
  cases hmode : config.mode <;> simp [members, hmode]

theorem nodup_members (config : SessionConfig) : (config.members.map Prod.fst).Nodup := by
  cases hmode : config.mode <;> simp [members, hmode]

theorem mem_members_or_mayOmit (hname : name ∈ memberNames) :
    name ∈ config.members.map Prod.fst ∨ config.MayOmit name := by
  cases hmode : config.mode with
  | none =>
    by_cases hsame : name = "mode"
    · exact .inr (.inl ⟨hsame, hmode⟩)
    · left
      simpa [members, memberNames, hmode, hsame] using hname
  | some mode =>
    left
    simpa [members, memberNames, hmode] using hname

/-! ### Members taken in -/

theorem reads_arch (arch : Arch) : Reads readArch (quoted arch.key) arch :=
  reads_choice (by cases arch <;> decide)

theorem reads_dialect (dialect : Dialect) : Reads readDialect (quoted dialect.key) dialect :=
  reads_choice (by cases dialect <;> decide)

theorem reads_mode (mode : Mode) : Reads readMode (quoted mode.text) mode := by
  refine (reads_text mode.text).imp fun text rest hfound => ?_
  rw [readMode, hfound]
  simp only [Mode.read_text]

def Draft.ofNames (config : SessionConfig) (names : List String) : Draft where
  arch := if "arch" ∈ names then some config.arch else none
  mode := if "mode" ∈ names then some config.mode else none
  detail := if "detail" ∈ names then some config.detail else none
  dialect := if "syntax" ∈ names then some config.dialect else none

theorem takes_member {given : String × Value} {member : Member} (hgiven : given ∈ config.members)
    (hnew : given.1 ∉ names) (hmember : member.Gives given) :
    Takes form (.ofNames config names) given.1 member.tail
      (.ofNames config (given.1 :: names)) := by
  obtain ⟨-, layout, hvalue⟩ := hmember
  generalize hdraft : Draft.ofNames config names = draft
  rw [Member.tail, hvalue]
  rcases mem_members.mp hgiven with rfl | ⟨mode, hmode, rfl⟩ | rfl | rfl
  · have hnext : Draft.ofNames config ("arch" :: names) =
        { draft with arch := some config.arch } := by
      simp [← hdraft, Draft.ofNames]
    have hmember : ∀ text, form.member draft "arch" text =
        reading ({ draft with arch := · }) (readOnce draft.arch readArch text) := fun _ => rfl
    rw [hnext]
    exact takes_spaced hmember (hdraft ▸ if_neg hnew) (reads_arch config.arch) _ _
  · have hnext : Draft.ofNames config ("mode" :: names) =
        { draft with mode := some (some mode) } := by
      simp [← hdraft, Draft.ofNames, hmode]
    have hmember : ∀ text, form.member draft "mode" text =
        reading ({ draft with mode := · }) (readOnce draft.mode (readOption readMode) text) :=
      fun _ => rfl
    have hread := (reads_mode mode).option (by simp [quoted])
    rw [hnext]
    exact takes_spaced hmember (hdraft ▸ if_neg hnew) hread _ _
  · have hnext : Draft.ofNames config ("detail" :: names) =
        { draft with detail := some config.detail } := by
      simp [← hdraft, Draft.ofNames]
    have hmember : ∀ text, form.member draft "detail" text =
        reading ({ draft with detail := · }) (readOnce draft.detail readBool text) := fun _ => rfl
    rw [hnext]
    exact takes_spaced hmember (hdraft ▸ if_neg hnew) (reads_bool layout config.detail) _ _
  · have hnext : Draft.ofNames config ("syntax" :: names) =
        { draft with dialect := some config.dialect } := by
      simp [← hdraft, Draft.ofNames]
    have hmember : ∀ text, form.member draft "syntax" text =
        reading ({ draft with dialect := · }) (readOnce draft.dialect readDialect text) :=
      fun _ => rfl
    rw [hnext]
    exact takes_spaced hmember (hdraft ▸ if_neg hnew) (reads_dialect config.dialect) _ _

theorem takesAll_members {given : List (String × Value)} {members : List Member}
    (hmembers : List.Forall₂ Member.Gives members given)
    (hgiven : ∀ member ∈ given, member ∈ config.members)
    (hnodup : (given.map Prod.fst).Nodup) (hnew : ∀ member ∈ given, member.1 ∉ names) :
    ∃ all, TakesAll form (.ofNames config names) (members.map Member.item)
        (.ofNames config all) ∧
      ∀ name, name ∈ all ↔ name ∈ given.map Prod.fst ∨ name ∈ names := by
  induction hmembers generalizing names with
  | nil => exact ⟨names, .nil _, by simp⟩
  | @cons member first members rest hmember hrest ih =>
    obtain ⟨hfirst, hgiven⟩ := List.forall_mem_cons.mp hgiven
    obtain ⟨hother, hnodup⟩ := List.nodup_cons.mp hnodup
    obtain ⟨hnot, hnew⟩ := List.forall_mem_cons.mp hnew
    have hdisjoint : ∀ given ∈ rest, given.1 ∉ first.1 :: names := by
      intro given hmem hname
      rcases List.mem_cons.mp hname with hsame | hname
      · exact hother (hsame ▸ List.mem_map_of_mem hmem)
      · exact hnew given hmem hname
    obtain ⟨all, htakes, hall⟩ := ih hgiven hnodup hdisjoint
    refine ⟨all, ?_, fun name => ?_⟩
    · rw [List.map_cons, hmember.item]
      exact .cons (takes_member hfirst hnot hmember) htakes
    · rw [hall, List.map_cons, List.mem_cons, List.mem_cons]
      tauto

theorem getD_given {α : Type} {value default : α} (h : name ∉ names → value = default) :
    (if name ∈ names then some value else none).getD default = value := by
  by_cases hgiven : name ∈ names
  · rw [if_pos hgiven, Option.getD_some]
  · rw [if_neg hgiven, Option.getD_none, h hgiven]

theorem Draft.finish_ofNames (hnames : ∀ name ∈ memberNames, name ∉ names → config.MayOmit name) :
    (ofNames config names).finish = some config := by
  have harch : "arch" ∈ names := by
    by_contra hnot
    simpa [MayOmit] using hnames "arch" (by decide) hnot
  have hmode : "mode" ∉ names → config.mode = none := fun hnot => by
    simpa [MayOmit] using hnames "mode" (by decide) hnot
  have hdetail : "detail" ∉ names → config.detail = false := fun hnot => by
    simpa [MayOmit] using hnames "detail" (by decide) hnot
  have hdialect : "syntax" ∉ names → config.dialect = .default := fun hnot => by
    simpa [MayOmit] using hnames "syntax" (by decide) hnot
  have hjoin : ∀ mode : Option (Option Mode), mode.join = mode.getD none := by
    rintro (_ | _) <;> rfl
  simp only [finish, ofNames, if_pos harch, hjoin, getD_given hmode, getD_given hdetail,
    getD_given hdialect, Option.map_some]

theorem ofJson_of_takesAll {members : List Member} {text : String}
    (htext : ObjectText members text.toList)
    (hmembers : TakesAll form form.start (members.map Member.item) draft)
    (hfinish : draft.finish = some config) : ofJson text = .ok config := by
  obtain ⟨inside, after, hskip⟩ := htext.exists_skip
  simp only [ofJson, readDocument, read, form.read_objectText hmembers hskip, hfinish,
    after.skip_text]
  rfl

theorem ofJson_of_gives {members : List Member} {given : List (String × Value)} {text : String}
    {omitted : List String} (homitted : ∀ name ∈ omitted, config.MayOmit name)
    (hgiven : given.Perm (config.members.filter fun member => member.1 ∉ omitted))
    (hmembers : List.Forall₂ Member.Gives members given)
    (htext : ObjectText members text.toList) : ofJson text = .ok config := by
  have hnodup : (given.map Prod.fst).Nodup := by
    rw [(hgiven.map Prod.fst).nodup_iff]
    exact config.nodup_members.sublist (List.filter_sublist.map Prod.fst)
  have hmem : ∀ member ∈ given, member ∈ config.members := fun member hmember =>
    List.mem_of_mem_filter (hgiven.subset hmember)
  have hnew : ∀ member ∈ given, member.1 ∉ ([] : List String) := by simp
  obtain ⟨all, htakes, hall⟩ := takesAll_members hmembers hmem hnodup hnew
  refine ofJson_of_takesAll htext htakes (Draft.finish_ofNames fun name hname hnot => ?_)
  rcases mem_members_or_mayOmit hname with hwritten | homit
  · obtain ⟨member, hmember, rfl⟩ := List.mem_map.mp hwritten
    by_cases homit : member.1 ∈ omitted
    · exact homitted _ homit
    · have hkept := hgiven.symm.subset (List.mem_filter.mpr ⟨hmember, decide_eq_true homit⟩)
      exact absurd ((hall _).mpr (.inl (List.mem_map_of_mem hkept))) hnot
  · exact homit

/-! ### Members refused -/

namespace Draft

def has (draft : Draft) : String → Bool
  | "arch" => draft.arch.isSome
  | "mode" => draft.mode.isSome
  | "detail" => draft.detail.isSome
  | "syntax" => draft.dialect.isSome
  | _ => false

end Draft

theorem given_of_member {text rest : List Char}
    (h : form.member draft name text = .ok (next, rest)) :
    name ∈ memberNames ∧ draft.has name = false ∧
      ∀ other, next.has other = (decide (other = name) || draft.has other) := by
  simp only [form] at h
  split at h
  case h_5 => cases h
  -- each of the four fills its own field, which was empty
  all_goals
    obtain ⟨found, hfound, rfl⟩ := exists_of_reading h
    obtain ⟨hslot, -, value, -, -, rfl⟩ := exists_of_readOnce hfound
    refine ⟨by decide, ?_, fun other => ?_⟩
    · simp [Draft.has, hslot]
    · simp only [Draft.has]
      split <;> simp_all

theorem takesWhole_mode : TakesWhole readMode := by
  refine ⟨fun {text value rest left found} hvalue htext hread => ?_⟩
  rw [readMode] at hread
  split at hread
  · cases hread
  · next words behind hwords =>
    split at hread
    · cases hread
      exact takesWhole_text.left_eq hvalue htext hwords
    · cases hread

theorem takesWhole_form : form.TakesWhole := by
  refine ⟨fun {state next name member rest left} hvalue hread => ?_⟩
  simp only [form] at hread
  split at hread
  · obtain ⟨found, hfound, -⟩ := exists_of_reading hread
    exact (takesWhole_choice _).once hvalue hfound
  · obtain ⟨found, hfound, -⟩ := exists_of_reading hread
    exact takesWhole_mode.option.once hvalue hfound
  · obtain ⟨found, hfound, -⟩ := exists_of_reading hread
    exact takesWhole_bool.once hvalue hfound
  · obtain ⟨found, hfound, -⟩ := exists_of_reading hread
    exact (takesWhole_choice _).once hvalue hfound
  · cases hread

/-- The names of the members taken in are among the four and without repetition, and just these
were given in the end. -/
theorem took_names {final : Draft} (h : Took form draft names final) :
    names.Nodup ∧ (∀ name ∈ names, name ∈ memberNames ∧ draft.has name = false) ∧
      ∀ name, final.has name = (decide (name ∈ names) || draft.has name) := by
  induction h with
  | nil => simp
  | @cons draft next final name names text rest hmember _ ih =>
    obtain ⟨hname, hnew, hnext⟩ := given_of_member hmember
    obtain ⟨hnodup, hnames, hfinal⟩ := ih
    refine ⟨List.nodup_cons.mpr ⟨?_, hnodup⟩, List.forall_mem_cons.mpr ⟨⟨hname, hnew⟩, ?_⟩, ?_⟩
    · intro hmem
      have hgiven := (hnames name hmem).2
      rw [hnext] at hgiven
      simp at hgiven
    · intro other hother
      obtain ⟨hother, hgiven⟩ := hnames other hother
      rw [hnext, Bool.or_eq_false_iff] at hgiven
      exact ⟨hother, hgiven.2⟩
    · intro other
      rw [hfinal, hnext, Bool.or_left_comm, ← Bool.or_assoc, ← Bool.decide_or]
      simp only [List.mem_cons]

theorem form_of_ofJson {text : String} (h : ofJson text = .ok config) :
    ∃ draft left, form.read text.toList = .ok (draft, left) ∧ draft.finish = some config := by
  simp only [ofJson, readDocument, read] at h
  cases hread : form.read text.toList with
  | error fault =>
    rw [hread] at h
    cases h
  | ok result =>
    refine ⟨result.1, result.2, rfl, ?_⟩
    rw [hread] at h
    cases hfinish : result.1.finish with
    | none =>
      simp only [hfinish] at h
      cases h
    | some found =>
      simp only [hfinish] at h
      split at h
      · cases h
        rfl
      · cases h

theorem Draft.has_arch (h : draft.finish = some config) : draft.has "arch" = true := by
  obtain ⟨arch, harch, -⟩ := Option.map_eq_some_iff.mp h
  rw [Draft.has, harch, Option.isSome_some]

/-- An object that is read as a configuration has members of the four names only, each of them
once, and among them the family. -/
theorem named_of_ofJson {members : List Member} {text : String}
    (htext : ObjectText members text.toList) (hnames : ∀ member ∈ members, IsString member.name)
    (hvalues : ∀ member ∈ members, IsValue member.value) (h : ofJson text = .ok config) :
    ∃ names, NamedBy members names ∧ names.Nodup ∧ (∀ name ∈ names, name ∈ memberNames) ∧
      "arch" ∈ names := by
  obtain ⟨inside, after, hskip⟩ := htext.exists_skip
  obtain ⟨draft, left, hread, hfinish⟩ := form_of_ofJson h
  obtain ⟨names, hnamed, htook⟩ := form.read_took takesWhole_form hnames hvalues hskip hread
  obtain ⟨hnodup, hmember, hfinal⟩ := took_names htook
  refine ⟨names, hnamed, hnodup, fun name hname => (hmember name hname).1, ?_⟩
  have harch := Draft.has_arch hfinish
  rw [hfinal] at harch
  simpa [Draft.has, form] using harch

/-- A configuration is read back from what is written for it, in either layout, and from any other
object that gives its members, whatever their order and the blanks between them and whichever
default values are left out. An object with a member of another name, with a member given twice,
or without a family is refused, whatever its values. -/
theorem json_round_trip :
    (∀ (config : SessionConfig) (layout : Layout),
      ofJson (String.ofList (write layout config.toJson)) = .ok config) ∧
    (∀ (config : SessionConfig) (omitted : List String) (given : List (String × Value))
      (members : List Member) (text : String),
      (∀ name ∈ omitted, config.MayOmit name) →
      given.Perm (config.members.filter fun member => member.1 ∉ omitted) →
      List.Forall₂ Member.Gives members given → ObjectText members text.toList →
      ofJson text = .ok config) ∧
    ∀ (members : List Member) (text : String), ObjectText members text.toList →
      (∀ member ∈ members, IsString member.name) → (∀ member ∈ members, IsValue member.value) →
      (∃ member ∈ members, ∀ name ∈ memberNames, ¬ Spells member.name name.toList) ∨
        (∃ member other string, [member, other].Sublist members ∧ Spells member.name string ∧
          Spells other.name string) ∨
        (∀ member ∈ members, ¬ Spells member.name "arch".toList) →
      ∃ fault, ofJson text = .error fault := by
  refine ⟨fun config layout => ?_, fun config omitted given members text homitted hgiven hmembers
    htext => ofJson_of_gives homitted hgiven hmembers htext, ?_⟩
  · obtain ⟨inside, hinside⟩ := write_object layout config.members
    have hmembers : List.Forall₂ Member.Gives
        (config.members.map (Member.written layout.inner)) config.members := by
      rw [List.forall₂_map_left_iff, List.forall₂_same]
      exact fun given _ => Member.gives_written layout.inner given
    have hall : config.members.filter (fun member => member.1 ∉ []) = config.members := by simp
    refine ofJson_of_gives (List.forall_mem_nil _) (by rw [hall]) hmembers
      ⟨.none, inside, .none, ?_⟩
    rw [String.toList_ofList, toJson_eq, hinside]
    simp [Blanks.none]
  · intro members text htext hnames hvalues hwrong
    cases hread : ofJson text with
    | error fault => exact ⟨fault, rfl⟩
    | ok config =>
      exfalso
      -- What was read had members of the four names only, none of them twice, and a family.
      obtain ⟨names, hnamed, hnodup, hfour, harch⟩ :=
        named_of_ofJson htext hnames hvalues hread
      rcases hwrong with ⟨member, hmember, hother⟩ | ⟨member, other, string, htwo, hspells⟩ | hnone
      · obtain ⟨name, hname, hspells⟩ := hnamed.exists_name hmember
        exact hother name (hfour name hname) hspells
      · have hpair := (hnamed.pairwise hnodup).sublist htwo
        exact List.rel_of_pairwise_cons hpair List.mem_cons_self ⟨string, hspells⟩
      · obtain ⟨member, hmember, hspells⟩ := hnamed.exists_member harch
        exact hnone member hmember hspells

/-- Members out of order and with blanks between them, one left out, and a mode with a bit that has
no name; and an object that gives the family twice, its name spelled with an escape once. -/
theorem json_round_trip_spaced :
    ofJson " \x7b\"syntax\" :\"default\", \n\"mode\": \"MODE_32 | 0x40\" ,\"arch\":\"mips\"\x7d" =
        .ok { arch := .mips, mode := some ⟨0x44⟩ } ∧
      ∃ fault, ofJson "\x7b\"arch\":\"x86\",\"\\u0061rch\":null\x7d" = .error fault := by
  have hplain : Spells "rch".toList "rch".toList :=
    .plain (by decide) (by decide) (by decide) <| .plain (by decide) (by decide) (by decide) <|
      .plain (by decide) (by decide) (by decide) .nil
  have hspelled : Spells "arch".toList "arch".toList :=
    .plain (by decide) (by decide) (by decide) hplain
  have hescaped : Spells "\\u0061rch".toList "arch".toList :=
    .unit (@Hex4.intro '0' '0' '6' '1' 0 0 6 1 rfl rfl rfl rfl) rfl rfl hplain
  let space : Blanks := ⟨[' '], List.forall_mem_singleton.mpr rfl⟩
  let line : Blanks :=
    ⟨[' ', '\n'], List.forall_mem_cons.mpr ⟨rfl, List.forall_mem_singleton.mpr rfl⟩⟩
  let config : SessionConfig := { arch := .mips, mode := some ⟨0x44⟩ }
  let spaced : List Member :=
    [⟨.none, "syntax".toList, space, .none, "\"default\"".toList, .none⟩,
      ⟨line, "mode".toList, .none, space, "\"MODE_32 | 0x40\"".toList, space⟩,
      ⟨.none, "arch".toList, .none, .none, "\"mips\"".toList, .none⟩]
  let given : List (String × Value) :=
    [("syntax", .string "default"), ("mode", .string "MODE_32 | 0x40"), ("arch", .string "mips")]
  let twice : List Member :=
    [⟨.none, "arch".toList, .none, .none, "\"x86\"".toList, .none⟩,
      ⟨.none, "\\u0061rch".toList, .none, .none, "null".toList, .none⟩]
  have htext : (⟨0x44⟩ : Mode).text = "MODE_32 | 0x40" := by decide
  have hgiven : config.members.filter (fun member => member.1 ∉ ["detail"]) = given.reverse := by
    simp [config, given, members, htext, Arch.key, Dialect.key]
  have hvalue : IsValue "\"x86\"".toList :=
    .string <| .plain (by decide) (by decide) (by decide) <|
      .plain (by decide) (by decide) (by decide) <| .plain (by decide) (by decide) (by decide) .nil
  constructor
  · refine json_round_trip.2.1 config ["detail"] given spaced _ ?_ ?_ ?_ ⟨space, .none, .none, ?_⟩
    · exact List.forall_mem_singleton.mpr (.inr (.inl ⟨rfl, rfl⟩))
    · rw [hgiven]
      exact (List.reverse_perm given).symm
    · exact .cons ⟨rfl, .compact, rfl⟩
        (.cons ⟨rfl, .compact, rfl⟩ (.cons ⟨rfl, .compact, rfl⟩ .nil))
    · rfl
  · refine json_round_trip.2.2 twice _ ⟨.none, .none, .none, ?_⟩ ?_ ?_ (.inr (.inl
      ⟨_, _, "arch".toList, .refl _, hspelled, hescaped⟩))
    · rfl
    · simpa [twice] using And.intro hspelled.isString hescaped.isString
    · simpa [twice] using And.intro hvalue IsValue.null

end Disassembly.SessionConfig
