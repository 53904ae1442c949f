import Disassembly.Session
/-!
# Queries put to a session

With detail on, a session shows what the record answers and remembers whether that went well. With
detail off it asks no record, so that every query fails alike.
-/
namespace Disassembly.Session

/-- What a session makes of an answer: it shows the value and forgets its last error, or remembers
the error and gives a sentinel. -/
inductive Relayed {α β : Type} (session : Session) (sentinel : β) (shown : α → β) :
    Except Error α → β × Session → Prop where
  | answered (value : α) :
      Relayed session sentinel shown (.ok value) (shown value, { session with lastError := none })
  | failed (error : Error) :
      Relayed session sentinel shown (.error error)
        (sentinel, { session with lastError := some error })

def shownCount (count : Nat) : Int := if count ≤ 2147483647 then count else 2147483647

/-- A position as a signed number of 32 bits, `-1` standing for those beyond it and for none. -/
def shownIndex : Option Nat → Int
  | some index => if index ≤ 2147483647 then index else -1
  | none => -1

structure Relays (session : Session) (insn : Insn) : Prop where
  insnGroup : ∀ group,
    Relayed session false id (insn.inGroup group) (session.insnGroup insn group)
  regRead : ∀ reg, Relayed session false id (insn.readsReg reg) (session.regRead insn reg)
  regWrite : ∀ reg, Relayed session false id (insn.writesReg reg) (session.regWrite insn reg)
  opCount : ∀ kind, Relayed session (-1) shownCount (insn.opCount kind) (session.opCount insn kind)
  opIndex : ∀ kind nth,
    Relayed session (-1) shownIndex (insn.opIndex kind nth) (session.opIndex insn kind nth)

structure Withholds (session : Session) (insn : Insn) : Prop where
  insnGroup : ∀ group, session.insnGroup insn group =
    (false, { session with lastError := some .detailUnavailable })
  regRead : ∀ reg, session.regRead insn reg =
    (false, { session with lastError := some .detailUnavailable })
  regWrite : ∀ reg, session.regWrite insn reg =
    (false, { session with lastError := some .detailUnavailable })
  opCount : ∀ kind, session.opCount insn kind =
    (-1, { session with lastError := some .detailUnavailable })
  opIndex : ∀ kind nth, session.opIndex insn kind nth =
    (-1, { session with lastError := some .detailUnavailable })

section

variable {α : Type} {session : Session} {insn : Insn}

theorem query_of_ok (hdetail : session.detail = true) {ask : Insn → Except Error α} {value : α}
    (hask : ask insn = .ok value) :
    session.query insn ask = (.ok value, { session with lastError := none }) := by
  rw [query, if_pos hdetail, hask]

theorem query_of_error (hdetail : session.detail = true) {ask : Insn → Except Error α}
    {error : Error} (hask : ask insn = .error error) :
    session.query insn ask = (.error error, { session with lastError := some error }) := by
  rw [query, if_pos hdetail, hask]

theorem query_of_no_detail (hdetail : session.detail = false) (ask : Insn → Except Error α) :
    session.query insn ask =
      (.error .detailUnavailable, { session with lastError := some .detailUnavailable }) := by
  rw [query, if_neg (by simp [hdetail])]

theorem relayed_queryFlag (hdetail : session.detail = true) (insn : Insn)
    (ask : Insn → Except Error Bool) :
    Relayed session false id (ask insn) (session.queryFlag insn ask) := by
  cases hask : ask insn with
  | ok flag =>
    rw [queryFlag, query_of_ok hdetail hask]
    exact .answered flag
  | error error =>
    rw [queryFlag, query_of_error hdetail hask]
    exact .failed error

theorem shownCount_eq (count : Nat) : shownCount count = Int.ofNat (min count maxCount) := by
  have hmax : maxCount = 2147483647 := rfl
  rw [shownCount, hmax]
  by_cases hle : count ≤ 2147483647
  · rw [if_pos hle, Nat.min_eq_left hle]
    rfl
  · rw [if_neg hle, Nat.min_eq_right (by omega)]
    rfl

theorem relayed_opCount (hdetail : session.detail = true) (insn : Insn) (kind : OperandKind) :
    Relayed session (-1) shownCount (insn.opCount kind) (session.opCount insn kind) := by
  cases hask : insn.opCount kind with
  | ok count =>
    rw [opCount, query_of_ok hdetail hask]
    dsimp only
    rw [← shownCount_eq]
    exact .answered count
  | error error =>
    rw [opCount, query_of_error hdetail hask]
    exact .failed error

theorem relayed_opIndex (hdetail : session.detail = true) (insn : Insn) (kind : OperandKind)
    (nth : Nat) :
    Relayed session (-1) shownIndex (insn.opIndex kind nth) (session.opIndex insn kind nth) := by
  cases hask : insn.opIndex kind nth with
  | ok found =>
    rw [opIndex, query_of_ok hdetail hask]
    cases found with
    | none => exact .answered none
    | some index => exact .answered (some index)
  | error error =>
    rw [opIndex, query_of_error hdetail hask]
    exact .failed error

theorem relays_of_detail (hdetail : session.detail = true) (insn : Insn) : session.Relays insn where
  insnGroup group := relayed_queryFlag hdetail insn (·.inGroup group)
  regRead reg := relayed_queryFlag hdetail insn (·.readsReg reg)
  regWrite reg := relayed_queryFlag hdetail insn (·.writesReg reg)
  opCount := relayed_opCount hdetail insn
  opIndex := relayed_opIndex hdetail insn

theorem withholds_of_no_detail (hdetail : session.detail = false) (insn : Insn) :
    session.Withholds insn := by
  constructor
  · intro group
    rw [insnGroup, queryFlag, query_of_no_detail hdetail]
  · intro reg
    rw [regRead, queryFlag, query_of_no_detail hdetail]
  · intro reg
    rw [regWrite, queryFlag, query_of_no_detail hdetail]
  · intro kind
    rw [opCount, query_of_no_detail hdetail]
  · intro kind nth
    rw [opIndex, query_of_no_detail hdetail]

end

end Disassembly.Session
