import Disassembly.Json.Grammar
import Disassembly.Proofs.Json.Scalars
import Mathlib.Data.List.Forall2
/-!
# Arrays and structures, written and read back

What stands between two brackets is described by its elements alone, however many blanks there are
before them, before the commas and before the closing bracket. A reader that is right about the
elements is right about the array; a structure's form that takes in each member is right about the
object. Both layouts of the writer fit that description.
-/
namespace Disassembly.Json

variable {α σ : Type} {closing : Char} {rest text inside : List Char} {items : List (List Char)}

inductive Trails (closing : Char) (rest : List Char) : List (List Char) → List Char → Prop
  | done {text : List Char} (hclosing : skipBlanks text = closing :: rest) :
      Trails closing rest [] text
  | more {text behind item after : List Char} {items : List (List Char)}
      (hcomma : skipBlanks text = ',' :: behind) (hitem : skipBlanks behind = item ++ after)
      (hitems : Trails closing rest items after) : Trails closing rest (item :: items) text

inductive Listed (closing : Char) (rest : List Char) : List (List Char) → List Char → Prop
  | empty {text : List Char} (hclosing : skipBlanks text = closing :: rest) :
      Listed closing rest [] text
  | first {text item after : List Char} {items : List (List Char)}
      (hitem : skipBlanks text = item ++ after) (hitems : Trails closing rest items after) :
      Listed closing rest (item :: items) text

theorem Trails.ends (h : Trails closing rest items text)
    (hclosing : continuesNumber closing = false) : Ends text := by
  cases h with
  | done hdone => exact ends_of_skipBlanks hdone hclosing
  | more hcomma _ _ => exact ends_of_skipBlanks hcomma rfl

theorem length_lt_of_skipBlanks {c : Char} (h : skipBlanks text = c :: rest) :
    rest.length < text.length := by
  have hle := length_skipBlanks_le text
  rw [h, List.length_cons] at hle
  omega

theorem length_le_of_skipBlanks {item : List Char} (h : skipBlanks text = item ++ rest) :
    rest.length ≤ text.length := by
  have hle := length_skipBlanks_le text
  rw [h, List.length_append] at hle
  omega

theorem Trails.length_lt (h : Trails closing rest items text) : items.length < text.length := by
  induction h with
  | done hclosing => exact Nat.zero_lt_of_lt (length_lt_of_skipBlanks hclosing)
  | more hcomma hitem _ ih =>
    have hbehind := length_lt_of_skipBlanks hcomma
    have hafter := length_le_of_skipBlanks hitem
    rw [List.length_cons]
    omega

/-! ### Arrays -/

section Arrays

variable {read : List Char → Reading α} {written behind after : List Char} {first : Bool}

theorem nextElement_closing (h : skipBlanks text = ']' :: rest) :
    nextElement first text = .ok (false, ']' :: rest) := by
  rw [nextElement, h]
  rfl

theorem nextElement_first (hstarts : Starts written) (h : skipBlanks text = written ++ after) :
    nextElement true text = .ok (true, written ++ after) := by
  obtain ⟨c, tail, rfl, -, hbracket⟩ := hstarts
  rw [nextElement, h]
  split
  · next hnil => cases hnil
  · next hclosing =>
    cases hclosing
    exact absurd rfl hbracket
  · next hcons =>
    cases hcons
    rfl

theorem nextElement_comma (hstarts : Starts written) (hcomma : skipBlanks text = ',' :: behind)
    (h : skipBlanks behind = written ++ after) :
    nextElement false text = .ok (true, written ++ after) := by
  obtain ⟨c, tail, rfl, -, hbracket⟩ := hstarts
  rw [nextElement, hcomma]
  split
  · next hnil => cases hnil
  · next hclosing => cases hclosing
  · next hcons =>
    cases hcons
    rw [if_neg Bool.false_ne_true, if_pos rfl, h]
    split
    · next hnil => cases hnil
    · next hclosing =>
      cases hclosing
      exact absurd rfl hbracket
    · rfl

theorem readElements_closing (h : skipBlanks text = ']' :: rest) (steps : Nat) :
    readElements read (steps + 1) first text = .ok ([], rest) := by
  have hclose : closeArray (']' :: rest) = .ok rest := by
    rw [closeArray, skipBlanks_cons rfl]
    rfl
  rw [readElements, nextElement_closing h]
  simp only [hclose]

theorem readElements_item {value : α} {values : List α} {steps : Nat}
    (hread : Reads read written value)
    (hnext : nextElement first text = .ok (true, written ++ after)) (hafter : Ends after)
    (hrest : readElements read steps false after = .ok (values, rest)) :
    readElements read (steps + 1) first text = .ok (value :: values, rest) := by
  have hvalue := hread.found (hread.starts.skipBlanks_written after) hafter
  rw [readElements, hnext]
  simp only [hvalue, hrest]

theorem readElements_trails {values : List α} {steps : Nat}
    (hitems : List.Forall₂ (Reads read) items values) (h : Trails ']' rest items text)
    (hsteps : items.length < steps) :
    readElements read steps false text = .ok (values, rest) := by
  -- induction on the elements, each of which takes one of the steps
  induction h generalizing values steps with
  | done hclosing =>
    cases hitems
    obtain ⟨steps, rfl⟩ := Nat.exists_eq_add_of_lt hsteps
    exact readElements_closing hclosing _
  | more hcomma hitem htrails ih =>
    cases hitems with
    | cons hread hitems =>
      obtain ⟨steps, rfl⟩ : ∃ n, steps = n + 1 := ⟨steps - 1, by omega⟩
      rw [List.length_cons] at hsteps
      exact readElements_item hread (nextElement_comma hread.starts hcomma hitem)
        (htrails.ends rfl) (ih hitems (by omega))

theorem readArray_listed {values : List α} (hitems : List.Forall₂ (Reads read) items values)
    (hopening : skipBlanks text = '[' :: inside) (h : Listed ']' rest items inside) :
    readArray read text = .ok (values, rest) := by
  rw [readArray, hopening]
  cases h with
  | empty hclosing =>
    cases hitems
    exact readElements_closing hclosing _
  | first hitem htrails =>
    cases hitems with
    | cons hread hitems =>
      have hafter := length_le_of_skipBlanks hitem
      exact readElements_item hread (nextElement_first hread.starts hitem) (htrails.ends rfl)
        (readElements_trails hitems htrails (Nat.lt_of_lt_of_le htrails.length_lt hafter))

end Arrays

/-! ### Objects -/

def Takes (form : Form σ) (state : σ) (name : String) (member : List Char) (next : σ) : Prop :=
  ∀ rest, Ends rest → form.member state name (member ++ rest) = .ok (next, rest)

inductive TakesAll (form : Form σ) : σ → List (List Char) → σ → Prop
  | nil (state : σ) : TakesAll form state [] state
  | cons {state next final : σ} {name : String} {member : List Char} {members : List (List Char)}
      (hmember : Takes form state name member next) (hmembers : TakesAll form next members final) :
      TakesAll form state ((quoted name ++ member) :: members) final

section Objects

variable {form : Form σ} {state next final : σ} {name : String} {member after : List Char}
  {members : List (List Char)} {steps : Nat}

theorem Blanks.skip (blanks : Blanks) (text : List Char) :
    skipBlanks (blanks.text ++ text) = skipBlanks text := skipBlanks_append blanks.blank text

theorem Blanks.skip_text (blanks : Blanks) : skipBlanks blanks.text = [] := by
  have hskip := blanks.skip []
  rwa [List.append_nil] at hskip

theorem Starts.skip {written : List Char} (h : Starts written) (blanks : Blanks)
    (rest : List Char) : skipBlanks (blanks.text ++ (written ++ rest)) = written ++ rest := by
  rw [blanks.skip, h.skipBlanks_written]

theorem readColon_spaced (behind : Blanks) (rest : List Char) :
    readColon (behind.text ++ ':' :: rest) = .ok rest := by
  rw [readColon, behind.skip, skipBlanks_cons rfl]
  rfl

def Layout.gap : Layout → Blanks
  | compact => .none
  | pretty _ => ⟨[' '], List.forall_mem_singleton.mpr rfl⟩

theorem Layout.colon_eq (layout : Layout) : layout.colon = ':' :: layout.gap.text := by
  cases layout <;> rfl

theorem takes_spaced {read : List Char → Reading α} {slot : Option α} {change : Option α → σ}
    {written : List Char} {value : α}
    (hmember : ∀ text, form.member state name text = reading change (readOnce slot read text))
    (hslot : slot = none) (hread : Reads read written value) (behind between : Blanks) :
    Takes form state name (behind.text ++ ':' :: (between.text ++ written))
      (change (some value)) := by
  intro rest hrest
  have hfound := hread.found (hread.starts.skip between rest) hrest
  rw [hmember, hslot, readOnce, List.append_assoc, List.cons_append, List.append_assoc]
  simp only [Option.isSome_none, Bool.false_eq_true, if_false, readColon_spaced, hfound]
  rfl

theorem takes_once {read : List Char → Reading α} {slot : Option α} {change : Option α → σ}
    {written : List Char} {value : α}
    (hmember : ∀ text, form.member state name text = reading change (readOnce slot read text))
    (hslot : slot = none) (hread : Reads read written value) (layout : Layout) :
    Takes form state name (layout.colon ++ written) (change (some value)) := by
  rw [layout.colon_eq]
  exact takes_spaced hmember hslot hread .none layout.gap

theorem readMembers_closing (h : skipBlanks text = '\x7d' :: rest) (first : Bool) :
    readMembers form (steps + 1) first state text = .ok (state, rest) := by
  rw [readMembers, h]
  rfl

theorem readMembers_member {first : Bool} {c : Char} {tail : List Char}
    (h : skipBlanks text = c :: tail) (hclosing : c ≠ '\x7d') (hlead : first = true ∨ c = ',')
    (hkey : readKey (if first then c :: tail else tail) = .ok (name, member ++ after))
    (hmember : Takes form state name member next) (hafter : Ends after)
    (hrest : readMembers form steps false next after = .ok (final, rest)) :
    readMembers form (steps + 1) first state text = .ok (final, rest) := by
  have hcomma : ¬ (!first && c != ',') = true := by
    rcases hlead with rfl | rfl <;> simp
  rw [readMembers, h]
  split
  · next hnil => cases hnil
  · next hcons =>
    cases hcons
    exact absurd rfl hclosing
  · next hcons =>
    cases hcons
    rw [if_neg hcomma, hkey]
    simp only [hmember after hafter, hrest]

theorem readMembers_first (hmember : Takes form state name member next)
    (h : skipBlanks text = quoted name ++ member ++ after) (hafter : Ends after)
    (hrest : readMembers form steps false next after = .ok (final, rest)) :
    readMembers form (steps + 1) true state text = .ok (final, rest) := by
  rw [List.append_assoc] at h
  have hkey := readKey_quoted ((starts_quoted name).skipBlanks_written (member ++ after))
  exact readMembers_member h (by decide) (.inl rfl) hkey hmember hafter hrest

theorem readMembers_comma {behind : List Char} (hmember : Takes form state name member next)
    (hcomma : skipBlanks text = ',' :: behind)
    (h : skipBlanks behind = quoted name ++ member ++ after) (hafter : Ends after)
    (hrest : readMembers form steps false next after = .ok (final, rest)) :
    readMembers form (steps + 1) false state text = .ok (final, rest) := by
  rw [List.append_assoc] at h
  exact readMembers_member hcomma (by decide) (.inr rfl) (readKey_quoted h) hmember hafter hrest

theorem readMembers_trails (hmembers : TakesAll form state members final)
    (h : Trails '\x7d' rest members text) (hsteps : members.length < steps) :
    readMembers form steps false state text = .ok (final, rest) := by
  induction h generalizing state steps with
  | done hclosing =>
    cases hmembers
    obtain ⟨steps, rfl⟩ := Nat.exists_eq_add_of_lt hsteps
    exact readMembers_closing hclosing _
  | more hcomma hitem htrails ih =>
    cases hmembers with
    | cons hmember hmembers =>
      obtain ⟨steps, rfl⟩ : ∃ n, steps = n + 1 := ⟨steps - 1, by omega⟩
      rw [List.length_cons] at hsteps
      exact readMembers_comma hmember hcomma hitem (htrails.ends rfl) (ih hmembers (by omega))

/-- Whatever the blanks, the form ends up with all members taken in. -/
theorem Form.read_listed (hmembers : TakesAll form form.start members final)
    (hopening : skipBlanks text = '\x7b' :: inside) (h : Listed '\x7d' rest members inside) :
    form.read text = .ok (final, rest) := by
  rw [Form.read, hopening]
  cases h with
  | empty hclosing =>
    cases hmembers
    exact readMembers_closing hclosing _
  | first hitem htrails =>
    cases hmembers with
    | cons hmember hmembers =>
      have hafter := length_le_of_skipBlanks hitem
      exact readMembers_first hmember hitem (htrails.ends rfl)
        (readMembers_trails hmembers htrails (Nat.lt_of_lt_of_le htrails.length_lt hafter))

end Objects

/-! ### The written forms -/

theorem isBlank_of_mem_line {layout : Layout} : ∀ c ∈ layout.line, isBlank c = true := by
  intro c hc
  cases layout with
  | compact => cases hc
  | pretty depth =>
    rcases List.mem_cons.mp hc with rfl | hspace
    · rfl
    · rw [List.eq_of_mem_replicate hspace]
      rfl

theorem Starts.skipBlanks_line {written : List Char} (h : Starts written) (layout : Layout)
    (rest : List Char) : skipBlanks (layout.line ++ (written ++ rest)) = written ++ rest := by
  rw [skipBlanks_append isBlank_of_mem_line, h.skipBlanks_written]

theorem trails_written (layout : Layout) (hitems : ∀ item ∈ items, Starts item)
    (hclosing : isBlank closing = false) (rest : List Char) :
    Trails closing rest items
      (items.flatMap (fun item => ',' :: (layout.inner.line ++ item)) ++
        (layout.line ++ closing :: rest)) := by
  induction items with
  | nil =>
    refine .done ?_
    rw [List.flatMap_nil, List.nil_append, skipBlanks_append isBlank_of_mem_line]
    exact skipBlanks_cons hclosing rest
  | cons item items ih =>
    obtain ⟨hitem, hitems⟩ := List.forall_mem_cons.mp hitems
    rw [List.flatMap_cons, List.cons_append, List.cons_append, List.append_assoc, List.append_assoc]
    exact .more (skipBlanks_cons rfl _) (hitem.skipBlanks_line _ _) (ih hitems)

theorem listed_bracketed (opening closing : Char) (layout : Layout)
    (hitems : ∀ item ∈ items, Starts item) (hclosing : isBlank closing = false)
    (rest : List Char) :
    ∃ inside, bracketed opening closing layout items ++ rest = opening :: inside ∧
      Listed closing rest items inside := by
  cases items with
  | nil => exact ⟨_, rfl, .empty (skipBlanks_cons hclosing rest)⟩
  | cons item items =>
    obtain ⟨hitem, hitems⟩ := List.forall_mem_cons.mp hitems
    have htrails := trails_written layout hitems hclosing rest
    refine ⟨_, ?_, .first (hitem.skipBlanks_line layout.inner _) htrails⟩
    simp [bracketed]

theorem writeItems_eq_map (layout : Layout) (items : List Value) :
    writeItems layout items = items.map (write layout) := by
  induction items with
  | nil => rfl
  | cons item items ih => rw [writeItems, ih, List.map_cons]

theorem head?_bracketed (opening closing : Char) (layout : Layout) (items : List (List Char)) :
    (bracketed opening closing layout items).head? = some opening := by
  cases items <;> rfl

theorem starts_of_head? {written : List Char} {c : Char} (h : written.head? = some c)
    (hblank : isBlank c = false) (hbracket : c ≠ ']') : Starts written := by
  obtain ⟨tail, htail⟩ := List.head?_eq_some_iff.mp h
  exact ⟨c, tail, htail, hblank, hbracket⟩

theorem reads_array {read : List Char → Reading α} {encode : α → Value} {values : List α}
    (layout : Layout)
    (h : ∀ value ∈ values, Reads read (write layout.inner (encode value)) value) :
    Reads (readArray read) (write layout (.array (values.map encode))) values := by
  have hitems : List.Forall₂ (Reads read) (writeItems layout.inner (values.map encode)) values := by
    rw [writeItems_eq_map, List.map_map, List.forall₂_map_left_iff, List.forall₂_same]
    exact h
  have hstarts : ∀ item ∈ writeItems layout.inner (values.map encode), Starts item := by
    rw [writeItems_eq_map, List.map_map]
    intro item hitem
    obtain ⟨value, hvalue, rfl⟩ := List.mem_map.mp hitem
    exact (h value hvalue).starts
  rw [write]
  constructor
  · exact starts_of_head? (head?_bracketed ..) rfl (by decide)
  · intro text rest htext _
    obtain ⟨inside, hinside, hlisted⟩ := listed_bracketed '[' ']' layout hstarts rfl rest
    exact readArray_listed hitems (htext.trans hinside) hlisted

theorem TakesAll.member {form : Form σ} {state next final : σ} {name : String} {value : Value}
    {layout : Layout} {members : List (String × Value)}
    (hmember : Takes form state name (layout.colon ++ write layout value) next)
    (hmembers : TakesAll form next (writeMembers layout members) final) :
    TakesAll form state (writeMembers layout ((name, value) :: members)) final := by
  rw [writeMembers, List.append_assoc]
  exact .cons hmember hmembers

theorem TakesAll.starts {form : Form σ} {state final : σ} {members : List (List Char)}
    (h : TakesAll form state members final) : ∀ member ∈ members, Starts member := by
  induction h with
  | nil => exact List.forall_mem_nil _
  | cons _ _ ih => exact List.forall_mem_cons.mpr ⟨⟨_, _, rfl, rfl, by decide⟩, ih⟩

theorem reads_object {form : Form σ} {members : List (String × Value)} {final : σ}
    {layout : Layout} (h : TakesAll form form.start (writeMembers layout.inner members) final) :
    Reads form.read (write layout (.object members)) final := by
  rw [write]
  constructor
  · exact starts_of_head? (head?_bracketed ..) rfl (by decide)
  · intro text rest htext _
    obtain ⟨inside, hinside, hlisted⟩ := listed_bracketed '\x7b' '\x7d' layout h.starts rfl rest
    exact form.read_listed h (htext.trans hinside) hlisted

end Disassembly.Json
