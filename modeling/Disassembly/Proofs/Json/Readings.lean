import Disassembly.Proofs.Json.Objects
import Disassembly.Proofs.Json.Strings
/-!
# What a reading went through

A reader of one kind of value that finds something in a well-formed value stops where that value
ends. So a form that has read an object has gone through its members one by one, each by the name
that it spells.
-/
namespace Disassembly.Json

variable {α σ : Type} {text tail rest left value : List Char} {c : Char} {members : List Member}
  {inside : Blanks}

/-! ### Values by their first character -/

theorem IsNumber.exists_cons (h : IsNumber text) :
    ∃ c tail, text = c :: tail ∧ (c = '-' ∨ c.isDigit = true) := by
  cases h with
  | intro hsign hwhole =>
    rcases hsign with rfl | rfl
    · obtain ⟨c, digits, rfl⟩ := List.exists_cons_of_ne_nil hwhole.1
      exact ⟨c, _, rfl, .inr (hwhole.2 c List.mem_cons_self)⟩
    · exact ⟨'-', _, rfl, .inl rfl⟩

theorem IsNumber.head (h : IsNumber (c :: tail)) : c = '-' ∨ c.isDigit = true := by
  obtain ⟨_, _, htext, hc⟩ := h.exists_cons
  cases htext
  exact hc

theorem IsValue.of_n (h : IsValue ('n' :: tail)) : tail = ['u', 'l', 'l'] := by
  cases h with
  | null => rfl
  | number htext => exact absurd htext.head (by decide)

theorem IsValue.of_t (h : IsValue ('t' :: tail)) : tail = ['r', 'u', 'e'] := by
  cases h with
  | true => rfl
  | number htext => exact absurd htext.head (by decide)

theorem IsValue.of_f (h : IsValue ('f' :: tail)) : tail = ['a', 'l', 's', 'e'] := by
  cases h with
  | false => rfl
  | number htext => exact absurd htext.head (by decide)

theorem IsValue.of_quote (h : IsValue ('"' :: tail)) :
    ∃ text, IsString text ∧ tail = text ++ ['"'] := by
  cases h with
  | string htext => exact ⟨_, htext, rfl⟩
  | number htext => exact absurd htext.head (by decide)

theorem IsValue.of_brace (h : IsValue ('\x7b' :: tail)) : ∃ members inside,
    (∀ member ∈ members, IsString member.name) ∧ (∀ member ∈ members, IsValue member.value) ∧
      '\x7b' :: tail = objectText members inside := by
  cases h with
  | object hnames hvalues => exact ⟨_, _, hnames, hvalues, rfl⟩
  | number htext => exact absurd htext.head (by decide)

theorem IsValue.starts (h : IsValue value) : Starts value := by
  cases h with
  | null | true | false => exact ⟨_, _, rfl, rfl, by decide⟩
  | string | array | object => exact ⟨_, _, rfl, rfl, by decide⟩
  | number htext =>
    obtain ⟨c, tail, rfl, rfl | hdigit⟩ := htext.exists_cons
    · exact ⟨_, _, rfl, rfl, by decide⟩
    · exact ⟨c, tail, rfl, not_blank_of_isDigit hdigit⟩

theorem IsValue.exists_cons (h : IsValue value) (hvalue : value ++ rest = c :: text) :
    ∃ tail, value = c :: tail ∧ text = tail ++ rest := by
  obtain ⟨d, tail, rfl, -⟩ := h.starts
  cases hvalue
  exact ⟨tail, rfl, rfl⟩

/-! ### Readers that take whole values -/

structure TakesWhole (read : List Char → Reading α) : Prop where
  left_eq {text value rest left : List Char} {found : α} (hvalue : IsValue value)
    (htext : skipBlanks text = value ++ rest) (hread : read text = .ok (found, left)) : left = rest

theorem takesWhole_bool : TakesWhole readBool := by
  refine ⟨fun {text value rest left found} hvalue htext hread => ?_⟩
  rw [readBool, htext] at hread
  split at hread
  · next tail hcons =>
    obtain ⟨tail, rfl, rfl⟩ := hvalue.exists_cons hcons
    cases hvalue.of_t
    cases hread
    rfl
  · next tail hcons =>
    obtain ⟨tail, rfl, rfl⟩ := hvalue.exists_cons hcons
    cases hvalue.of_f
    cases hread
    rfl
  · cases hread

theorem takesWhole_text : TakesWhole readText := by
  refine ⟨fun {text value rest left found} hvalue htext hread => ?_⟩
  rw [readText, htext] at hread
  split at hread
  · next tail hcons =>
    obtain ⟨tail, rfl, rfl⟩ := hvalue.exists_cons hcons
    obtain ⟨string, hstring, rfl⟩ := hvalue.of_quote
    rw [List.append_assoc, List.singleton_append] at hread
    split at hread
    · cases hread
    · next characters behind hfound =>
      cases hread
      exact (hstring.spells_of_readString hfound).2
  · cases hread

theorem TakesWhole.option {read : List Char → Reading α} (h : TakesWhole read) :
    TakesWhole (readOption read) := by
  refine ⟨fun {text value rest left found} hvalue htext hread => ?_⟩
  rw [readOption, htext] at hread
  split at hread
  · next tail hcons =>
    obtain ⟨tail, rfl, rfl⟩ := hvalue.exists_cons hcons
    cases hvalue.of_n
    cases hread
    rfl
  · cases hfound : read (value ++ rest) with
    | error fault =>
      rw [hfound] at hread
      cases hread
    | ok result =>
      rw [hfound] at hread
      cases hread
      exact h.left_eq hvalue (hvalue.starts.skipBlanks_written rest) hfound

theorem readKey_item {member : Member} {name : String} (hname : IsString member.name)
    (htext : skipBlanks text = member.item ++ rest) (hread : readKey text = .ok (name, left)) :
    Spells member.name name.toList ∧ left = member.tail ++ rest := by
  rw [readKey, htext, Member.item, List.cons_append, List.append_assoc, List.cons_append] at hread
  cases hfound : readString (member.name ++ '"' :: (member.tail ++ rest)) with
  | error fault =>
    simp only [hfound] at hread
    cases hread
  | ok result =>
    simp only [hfound] at hread
    cases hread
    rw [String.toList_ofList]
    exact hname.spells_of_readString hfound

theorem readColon_tail (member : Member) (rest : List Char) :
    readColon (member.tail ++ rest) = .ok (member.between.text ++ (member.value ++ rest)) := by
  rw [Member.tail, List.append_assoc, List.cons_append, List.append_assoc, readColon_spaced]

theorem readNull_value (hvalue : IsValue value) (htext : skipBlanks text = value ++ rest)
    (hread : readNull text = .ok left) : left = rest := by
  rw [readNull, htext] at hread
  split at hread
  · next tail hcons =>
    obtain ⟨tail, rfl, rfl⟩ := hvalue.exists_cons hcons
    cases hvalue.of_n
    cases hread
    rfl
  · cases hread

theorem readChoice_brace {alternatives : List (String × α)} {inside : List Char} {found : α}
    (htext : skipBlanks text = '\x7b' :: inside)
    (hread : readChoice alternatives text = .ok (found, left)) :
    ∃ name behind between after, readKey inside = .ok (name, behind) ∧
      readColon behind = .ok between ∧ readNull between = .ok after ∧
      skipBlanks after = '\x7d' :: left := by
  rw [readChoice, htext] at hread
  dsimp only at hread
  split at hread
  · cases hread
  · next hcons => cases hcons
  · next hcons =>
    cases hcons
    split at hread
    · cases hread
    · next name behind hkey =>
      split at hread
      · cases hread
      · split at hread
        · cases hread
        · next between hcolon =>
          split at hread
          · cases hread
          · next after hnull =>
            split at hread
            · cases hread
            · next hclosing =>
              cases hread
              exact ⟨name, behind, between, after, hkey, hcolon, hnull, hclosing⟩
            · cases hread
  · cases hread

theorem left_of_sole {name : String} {listed behind between after : List Char}
    (hnames : ∀ member ∈ members, IsString member.name)
    (hvalues : ∀ member ∈ members, IsValue member.value)
    (hlisted : Listed '\x7d' rest (members.map Member.item) listed)
    (hkey : readKey listed = .ok (name, behind)) (hcolon : readColon behind = .ok between)
    (hnull : readNull between = .ok after) (hclosing : skipBlanks after = '\x7d' :: left) :
    left = rest := by
  generalize hitems : members.map Member.item = items at hlisted
  cases hlisted with
  | empty hempty =>
    rw [readKey, hempty] at hkey
    cases hkey
  | first hitem htrails =>
    obtain ⟨member, members, rfl, rfl, -⟩ := List.map_eq_cons_iff.mp hitems
    obtain ⟨-, rfl⟩ := readKey_item (hnames _ List.mem_cons_self) hitem hkey
    rw [readColon_tail] at hcolon
    cases hcolon
    have hvalue := hvalues _ List.mem_cons_self
    obtain rfl := readNull_value hvalue (hvalue.starts.skip _ _) hnull
    cases htrails with
    | done hdone =>
      rw [hdone] at hclosing
      cases hclosing
      rfl
    | more hcomma _ _ =>
      rw [hcomma] at hclosing
      cases hclosing

theorem left_of_quote {alternatives : List (String × α)} {string : List Char} {found : α}
    (hstring : IsString string) (htext : skipBlanks text = '"' :: (string ++ '"' :: rest))
    (hread : readChoice alternatives text = .ok (found, left)) : left = rest := by
  simp only [readChoice, htext] at hread
  split at hread
  · cases hread
  · next characters behind hfound =>
    obtain ⟨-, rfl⟩ := hstring.spells_of_readString hfound
    cases hlookup : alternatives.lookup (String.ofList characters) with
    | none =>
      rw [hlookup] at hread
      cases hread
    | some choice =>
      rw [hlookup] at hread
      cases hread
      rfl

theorem takesWhole_choice (alternatives : List (String × α)) :
    TakesWhole (readChoice alternatives) := by
  refine ⟨fun {text value rest left found} hvalue htext hread => ?_⟩
  obtain ⟨c, tail, rfl, -⟩ := hvalue.starts
  by_cases hquote : c = '"'
  · subst hquote
    obtain ⟨string, hstring, rfl⟩ := hvalue.of_quote
    rw [List.cons_append, List.append_assoc] at htext
    exact left_of_quote hstring htext hread
  · by_cases hbrace : c = '\x7b'
    · subst hbrace
      obtain ⟨members, inside, hnames, hvalues, hobject⟩ := hvalue.of_brace
      obtain ⟨listed, hopening, hlisted⟩ := listed_members members inside rest
      rw [← hobject] at hopening
      obtain ⟨name, behind, between, after, hkey, hcolon, hnull, hclosing⟩ :=
        readChoice_brace (htext.trans hopening) hread
      exact left_of_sole hnames hvalues hlisted hkey hcolon hnull hclosing
    · -- no other value is taken for a choice
      rw [readChoice, htext] at hread
      dsimp only at hread
      split at hread
      · cases hread
      · next hcons => exact absurd (List.cons_eq_cons.mp hcons).1 hquote
      · next hcons => exact absurd (List.cons_eq_cons.mp hcons).1 hbrace
      · cases hread

/-! ### Members by their names -/

theorem exists_of_reading {β : Type} {change : α → β} {result : Reading α} {found : β}
    (h : reading change result = .ok (found, left)) :
    ∃ value, result = .ok (value, left) ∧ found = change value := by
  cases result with
  | error fault => cases h
  | ok result =>
    cases h
    exact ⟨_, rfl, rfl⟩

theorem exists_of_readOnce {slot found : Option α} {read : List Char → Reading α}
    (h : readOnce slot read text = .ok (found, left)) : slot = none ∧ ∃ behind value,
      readColon text = .ok behind ∧ read behind = .ok (value, left) ∧ found = some value := by
  cases slot with
  | some value => cases h
  | none =>
    simp only [readOnce, Option.isSome_none, Bool.false_eq_true, if_false] at h
    split at h
    · cases h
    · next behind hcolon =>
      split at h
      · cases h
      · next value behind' hread =>
        cases h
        exact ⟨rfl, behind, value, hcolon, hread, rfl⟩

/-- A form whose members leave what is behind their values. -/
structure Form.TakesWhole (form : Form σ) : Prop where
  left_eq {state next : σ} {name : String} {member : Member} {rest left : List Char}
    (hvalue : IsValue member.value)
    (hread : form.member state name (member.tail ++ rest) = .ok (next, left)) : left = rest

theorem TakesWhole.once {read : List Char → Reading α} (h : TakesWhole read)
    {slot found : Option α} {member : Member} (hvalue : IsValue member.value)
    (hread : readOnce slot read (member.tail ++ rest) = .ok (found, left)) : left = rest := by
  obtain ⟨-, behind, value, hcolon, hfound, -⟩ := exists_of_readOnce hread
  rw [readColon_tail] at hcolon
  cases hcolon
  exact h.left_eq hvalue (hvalue.starts.skip _ _) hfound

inductive Took (form : Form σ) : σ → List String → σ → Prop
  | nil (state : σ) : Took form state [] state
  | cons {state next final : σ} {name : String} {names : List String} {text rest : List Char}
      (hmember : form.member state name text = .ok (next, rest))
      (hnames : Took form next names final) : Took form state (name :: names) final

def NamedBy (members : List Member) (names : List String) : Prop :=
  List.Forall₂ (fun member name => Spells member.name name.toList) members names

variable {form : Form σ} {state final : σ} {steps : Nat}

theorem exists_of_readMembers {first : Bool} (htext : skipBlanks text = c :: tail) (hc : c ≠ '\x7d')
    (hread : readMembers form (steps + 1) first state text = .ok (final, left)) :
    ∃ name behind next after, readKey (if first then c :: tail else tail) = .ok (name, behind) ∧
      form.member state name behind = .ok (next, after) ∧
      readMembers form steps false next after = .ok (final, left) := by
  rw [readMembers, htext] at hread
  split at hread
  · cases hread
  · next hcons =>
    cases hcons
    exact absurd rfl hc
  · next hcons =>
    cases hcons
    split at hread
    · cases hread
    · split at hread
      · cases hread
      · next name behind hkey =>
        split at hread
        · cases hread
        · next next after hmember => exact ⟨name, behind, next, after, hkey, hmember, hread⟩

/-- A member that was gone through was read by the name that it spells, up to its end. -/
theorem readMembers_spelled {first : Bool} {member : Member} {after : List Char}
    (hform : form.TakesWhole) (hname : IsString member.name) (hvalue : IsValue member.value)
    (htext : skipBlanks text = c :: tail) (hc : c ≠ '\x7d')
    (hread : readMembers form (steps + 1) first state text = .ok (final, left))
    (hitem : skipBlanks (if first then c :: tail else tail) = member.item ++ after) :
    ∃ name next, Spells member.name name.toList ∧
      form.member state name (member.tail ++ after) = .ok (next, after) ∧
      readMembers form steps false next after = .ok (final, left) := by
  obtain ⟨name, behind, next, left', hkey, hmember, hread⟩ := exists_of_readMembers htext hc hread
  obtain ⟨hspells, rfl⟩ := readKey_item hname hitem hkey
  obtain rfl := hform.left_eq hvalue hmember
  exact ⟨name, next, hspells, hmember, hread⟩

theorem readMembers_took (hform : form.TakesWhole)
    (hnames : ∀ member ∈ members, IsString member.name)
    (hvalues : ∀ member ∈ members, IsValue member.value)
    (htrails : Trails '\x7d' rest (members.map Member.item) text)
    (hread : readMembers form steps false state text = .ok (final, left)) :
    ∃ names, NamedBy members names ∧ Took form state names final := by
  induction members generalizing text state steps with
  | nil =>
    cases htrails with
    | done hclosing =>
      cases steps with
      | zero => cases hread
      | succ steps =>
        rw [readMembers_closing hclosing] at hread
        cases hread
        exact ⟨[], .nil, .nil _⟩
  | cons member members ih =>
    obtain ⟨hname, hnames⟩ := List.forall_mem_cons.mp hnames
    obtain ⟨hvalue, hvalues⟩ := List.forall_mem_cons.mp hvalues
    cases htrails with
    | more hcomma hitem htrails =>
      cases steps with
      | zero => cases hread
      | succ steps =>
        obtain ⟨name, next, hspells, hmember, hread⟩ :=
          readMembers_spelled hform hname hvalue hcomma (by decide) hread hitem
        obtain ⟨names, hnamed, htook⟩ := ih hnames hvalues htrails hread
        exact ⟨name :: names, .cons hspells hnamed, .cons hmember htook⟩

theorem Form.read_took (hform : form.TakesWhole)
    (hnames : ∀ member ∈ members, IsString member.name)
    (hvalues : ∀ member ∈ members, IsValue member.value)
    (htext : skipBlanks text = objectText members inside ++ rest)
    (hread : form.read text = .ok (final, left)) :
    ∃ names, NamedBy members names ∧ Took form form.start names final := by
  obtain ⟨listed, hopening, hlisted⟩ := listed_members members inside rest
  simp only [Form.read, htext.trans hopening] at hread
  cases members with
  | nil =>
    cases hlisted with
    | empty hclosing =>
      rw [readMembers_closing hclosing] at hread
      cases hread
      exact ⟨[], .nil, .nil _⟩
  | cons member members =>
    obtain ⟨hname, hnames⟩ := List.forall_mem_cons.mp hnames
    obtain ⟨hvalue, hvalues⟩ := List.forall_mem_cons.mp hvalues
    cases hlisted with
    | first hitem htrails =>
      obtain ⟨name, next, hspells, hmember, hread⟩ :=
        readMembers_spelled hform hname hvalue hitem (by decide) hread
          (member.starts.skipBlanks_written _)
      obtain ⟨names, hnamed, htook⟩ := readMembers_took hform hnames hvalues htrails hread
      exact ⟨name :: names, .cons hspells hnamed, .cons hmember htook⟩

/-! ### Names -/

section Names

variable {names : List String} (hnamed : NamedBy members names)

include hnamed

theorem NamedBy.exists_name {member : Member} (hmember : member ∈ members) :
    ∃ name ∈ names, Spells member.name name.toList := by
  induction hnamed with
  | nil => cases hmember
  | cons hspells _ ih =>
    rcases List.mem_cons.mp hmember with rfl | hmember
    · exact ⟨_, List.mem_cons_self, hspells⟩
    · obtain ⟨name, hname, hspells⟩ := ih hmember
      exact ⟨name, List.mem_cons_of_mem _ hname, hspells⟩

theorem NamedBy.exists_member {name : String} (hname : name ∈ names) :
    ∃ member ∈ members, Spells member.name name.toList := by
  induction hnamed with
  | nil => cases hname
  | cons hspells _ ih =>
    rcases List.mem_cons.mp hname with rfl | hname
    · exact ⟨_, List.mem_cons_self, hspells⟩
    · obtain ⟨member, hmember, hspells⟩ := ih hname
      exact ⟨member, List.mem_cons_of_mem _ hmember, hspells⟩

theorem NamedBy.pairwise (hnodup : names.Nodup) :
    members.Pairwise fun member other => ¬ ∃ string, Spells member.name string ∧
      Spells other.name string := by
  induction hnamed with
  | nil => exact .nil
  | @cons member name members names hspells hrest ih =>
    obtain ⟨hnew, hnodup⟩ := List.nodup_cons.mp hnodup
    refine .cons ?_ (ih hnodup)
    rintro other hother ⟨string, hstring, hother'⟩
    obtain ⟨name', hname', hspells'⟩ := NamedBy.exists_name hrest hother
    have hsame : name'.toList = name.toList :=
      (hspells'.unique hother').trans (hstring.unique hspells)
    exact hnew (String.toList_inj.mp hsame ▸ hname')

end Names

end Disassembly.Json
