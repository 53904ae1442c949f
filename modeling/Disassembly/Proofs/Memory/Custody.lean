import Disassembly.Proofs.Memory.Exchange
import Mathlib.Data.List.Perm.Basic
/-!
# Grants over one provider

Grants are requested, resized and dropped in any order, and the provider is reached in no other
way. What it counts in bytes is always what the grants hold. Its count of blocks runs ahead: a
block of size zero looks to it like none at all, so that resizing one counts as a fresh block,
while the grant that is resized stands for a single block and gives back no more than that.
-/
namespace Disassembly

/-- What can be done with grants. One that is alive is named by its position among them. -/
inductive GrantOp where
  | empty
  | allocate (size : UInt64)
  | zeroed (count size : UInt64)
  | resize (index : Nat) (size : UInt64)
  | drop (index : Nat)
  deriving DecidableEq, Repr

structure Custody where
  host : Host
  grants : List Grant := []

def Grant.hollow (provider : ProviderId) : Grant := { provider, held := true }

namespace Custody

def keep (custody : Custody) : Except Error Grant × Host → Custody
  | (.ok grant, host) => { host, grants := custody.grants ++ [grant] }
  | (.error _, host) => { custody with host }

def replace (custody : Custody) (index : Nat) : Except Error Grant × Host → Custody
  | (.ok grant, host) => { host, grants := custody.grants.set index grant }
  | (.error _, host) => { custody with host }

def step (id : ProviderId) (custody : Custody) : GrantOp → Custody
  | .empty => { custody with grants := custody.grants ++ [.empty id] }
  | .allocate size => custody.keep (Grant.allocate custody.host id size)
  | .zeroed count size => custody.keep (Grant.zeroed custody.host id count size)
  | .resize index size =>
    match custody.grants[index]? with
    | none => custody
    | some grant => custody.replace index (grant.resize custody.host size)
  | .drop index =>
    match custody.grants[index]? with
    | none => custody
    | some grant =>
      { host := grant.release custody.host, grants := custody.grants.eraseIdx index }

def run (id : ProviderId) (custody : Custody) (ops : List GrantOp) : Custody :=
  ops.foldl (step id) custody

/-- The blocks that the provider goes on counting after an operation though no grant stands for
them: one where a block of size zero is resized. -/
def strays (id : ProviderId) (custody : Custody) : GrantOp → Nat
  | .resize index size =>
    match custody.grants[index]? with
    | none => 0
    | some grant => if grant = .hollow id ∧ (grant.resize custody.host size).1.isOk then 1 else 0
  | .empty | .allocate _ | .zeroed _ _ | .drop _ => 0

def allStrays (id : ProviderId) (custody : Custody) : List GrantOp → Nat
  | [] => 0
  | op :: ops => custody.strays id op + (custody.step id op).allStrays id ops

end Custody

namespace Grant

variable {host host' : Host} {id : ProviderId} {count size : UInt64} {grant grant' : Grant}
  {error : Error}

theorem zeroed_of_ge (h : ¬ count.toNat * size.toNat < UInt64.size) :
    zeroed host id count size = (.error .outOfMemory, host.setProvider id (host.provider id)) := by
  simp [zeroed, Host.allocateZeroed, Provider.allocateZeroed, h]

theorem exchange_untouched (host : Host) (id : ProviderId) :
    host.Exchange [] (host.setProvider id (host.provider id)) [] :=
  host.exchange_setProvider id (f := fun provider => provider) rfl rfl (by simp) (by simp)
    fun _ => ⟨rfl, rfl⟩

theorem zeroed_ok (h : zeroed host id count size = (.ok grant, host')) :
    grant = { provider := id, size := count * size, held := true } ∧
      host.Exchange [] host' [grant] := by
  by_cases hlt : count.toNat * size.toNat < UInt64.size
  · rw [zeroed_of_lt hlt] at h
    exact allocate_ok h
  · rw [zeroed_of_ge hlt] at h
    cases h

theorem zeroed_error (h : zeroed host id count size = (.error error, host')) :
    host.Exchange [] host' [] := by
  by_cases hlt : count.toNat * size.toNat < UInt64.size
  · rw [zeroed_of_lt hlt] at h
    exact allocate_error h
  · rw [zeroed_of_ge hlt] at h
    cases h
    exact exchange_untouched host id

/-- A provider cannot tell a block of size zero from no block. The block stays behind when it is
resized, and another one takes its place. -/
theorem resize_hollow (h : (hollow id).resize host size = (.ok grant, host')) :
    grant = { provider := id, size, held := true } ∧
      host.Exchange [hollow id] host' [grant, hollow id] := by
  -- What is resized is known by its size alone, and this is the size of an empty grant.
  have hempty : (empty id).resize host size = (.ok grant, host') := h
  obtain ⟨rfl, hexchange⟩ := resize_ok (by simp [Settled, empty]) hempty
  exact ⟨rfl, ((Host.Exchange.empty host id).frame [hollow id]).trans (hexchange.frame [hollow id])⟩

def Sized (grant : Grant) : Prop := grant.held = false → grant.size = 0

theorem settled_of_ne_hollow (hsized : grant.Sized) (h : grant ≠ hollow grant.provider) :
    grant.Settled := by
  constructor
  · intro hzero
    cases hheld : grant.held with
    | false => rfl
    | true =>
      obtain ⟨provider, size, held⟩ := grant
      subst hzero hheld
      exact absurd rfl h
  · exact hsized

theorem resize_exchange (hown : grant.provider = id) (hsized : grant.Sized)
    (h : grant.resize host size = (.ok grant', host')) :
    grant' = { grant with size, held := true } ∧
      host.Exchange [grant] host' (grant' ::
        List.replicate (if grant = hollow id then 1 else 0) (hollow id)) := by
  subst hown
  by_cases hhollow : grant = hollow grant.provider
  · rw [hhollow] at h
    obtain ⟨rfl, hexchange⟩ := resize_hollow h
    rw [if_pos hhollow]
    refine ⟨rfl, ?_⟩
    exact hhollow ▸ hexchange
  · rw [if_neg hhollow]
    exact resize_ok (settled_of_ne_hollow hsized hhollow) h

theorem heldBytes_hollow (n : Nat) : heldBytes id (List.replicate n (hollow id)) = 0 := by
  simp [heldBytes, blocks, hollow]

theorem heldBlocks_hollow (n : Nat) : heldBlocks id (List.replicate n (hollow id)) = n := by
  simp [heldBlocks, blocks, hollow]

theorem heldBlocks_own {grants : List Grant} (h : ∀ grant ∈ grants, grant.provider = id) :
    heldBlocks id grants = grants.countP (·.held) := by
  rw [heldBlocks, blocks, List.countP_eq_length_filter]
  congr 1
  apply List.filter_congr
  intro grant hmem
  simp [h grant hmem]

end Grant

namespace Custody

open Grant (hollow)

/-- What holds in the course of a run: the blocks of the grants and the strays are those that the
provider gave out and did not get back. -/
structure Kept (start : Host) (id : ProviderId) (custody : Custody) (strays : Nat) : Prop where
  own : ∀ grant ∈ custody.grants, grant.provider = id
  sized : ∀ grant ∈ custody.grants, grant.Sized
  exchange : start.Exchange [] custody.host
    (custody.grants ++ List.replicate strays (hollow id))

variable {start host : Host} {id : ProviderId} {custody : Custody} {n : Nat} {grant : Grant}
  {index : Nat}

theorem kept_start (host : Host) (id : ProviderId) : Kept host id { host } 0 :=
  ⟨fun _ h => absurd h List.not_mem_nil, fun _ h => absurd h List.not_mem_nil, .refl host []⟩

theorem Kept.add (h : Kept start id custody n) (hown : grant.provider = id)
    (hsized : grant.Sized) (hexchange : custody.host.Exchange [] host [grant]) :
    Kept start id { host, grants := custody.grants ++ [grant] } n := by
  refine ⟨?_, ?_, ?_⟩
  · exact List.forall_mem_append.2 ⟨h.own, List.forall_mem_singleton.2 hown⟩
  · exact List.forall_mem_append.2 ⟨h.sized, List.forall_mem_singleton.2 hsized⟩
  · refine (h.exchange.trans (hexchange.frame _)).perm (.refl _) ?_
    rw [List.append_assoc]
    exact List.perm_append_comm_assoc _ _ _

theorem Kept.keep (h : Kept start id custody n) {result : Except Error Grant × Host}
    (hok : ∀ grant host, result = (.ok grant, host) →
      grant.provider = id ∧ grant.held = true ∧ custody.host.Exchange [] host [grant])
    (herror : ∀ error host, result = (.error error, host) → custody.host.Exchange [] host []) :
    Kept start id (custody.keep result) n := by
  rcases result with ⟨error | grant, host⟩
  · exact ⟨h.own, h.sized, h.exchange.trans ((herror error host rfl).frame _)⟩
  · obtain ⟨hown, hheld, hexchange⟩ := hok grant host rfl
    refine h.add hown ?_ hexchange
    intro hfalse
    rw [hheld] at hfalse
    cases hfalse

theorem Kept.exchange_at (h : Kept start id custody n)
    (hget : custody.grants[index]? = some grant) {granted : List Grant}
    (hexchange : custody.host.Exchange [grant] host granted) :
    start.Exchange [] host
      (granted ++ (custody.grants.eraseIdx index ++ List.replicate n (hollow id))) := by
  obtain ⟨hlt, rfl⟩ := List.getElem?_eq_some_iff.1 hget
  refine h.exchange.trans ((hexchange.frame _).perm ?_ (.refl _))
  exact (List.getElem_cons_eraseIdx_perm hlt).symm.append_right _

theorem Kept.drop (h : Kept start id custody n) (hget : custody.grants[index]? = some grant) :
    Kept start id
      { host := grant.release custody.host, grants := custody.grants.eraseIdx index } n := by
  refine ⟨?_, ?_, h.exchange_at hget (Grant.release_exchange grant custody.host)⟩
  · intro other hother
    exact h.own other (List.mem_of_mem_eraseIdx hother)
  · intro other hother
    exact h.sized other (List.mem_of_mem_eraseIdx hother)

theorem Kept.change (h : Kept start id custody n) (hget : custody.grants[index]? = some grant)
    {grant' : Grant} (hown : grant'.provider = id) (hsized : grant'.Sized) {k : Nat}
    (hexchange :
      custody.host.Exchange [grant] host (grant' :: List.replicate k (hollow id))) :
    Kept start id { host, grants := custody.grants.set index grant' } (k + n) := by
  obtain ⟨hlt, -⟩ := List.getElem?_eq_some_iff.1 hget
  refine ⟨?_, ?_, (h.exchange_at hget hexchange).perm (.refl _) ?_⟩
  · intro other hother
    rcases List.mem_or_eq_of_mem_set hother with hother | rfl
    · exact h.own other hother
    · exact hown
  · intro other hother
    rcases List.mem_or_eq_of_mem_set hother with hother | rfl
    · exact h.sized other hother
    · exact hsized
  · refine ((List.set_perm_cons_eraseIdx hlt grant').append_right _).trans ?_
    rw [List.replicate_add]
    exact (List.perm_append_comm_assoc _ _ _).cons grant'

theorem Kept.resize (h : Kept start id custody n) (hget : custody.grants[index]? = some grant)
    (size : UInt64) :
    Kept start id (custody.replace index (grant.resize custody.host size))
      (custody.strays id (.resize index size) + n) := by
  have hgrant : grant ∈ custody.grants := List.mem_of_getElem? hget
  have hown : grant.provider = id := h.own grant hgrant
  simp only [strays, hget]
  cases hresize : grant.resize custody.host size with
  | mk result host =>
    cases result with
    | error error =>
      obtain ⟨hlt, hat⟩ := List.getElem?_eq_some_iff.1 hget
      have hsame : custody.grants.set index grant = custody.grants :=
        hat ▸ List.set_getElem_self hlt
      have hkept := h.change hget hown (h.sized grant hgrant) (k := 0)
        (Grant.resize_error hresize)
      rw [hsame] at hkept
      simpa [replace, Except.isOk, Except.toBool] using hkept
    | ok grant' =>
      obtain ⟨rfl, hexchange⟩ := Grant.resize_exchange hown (h.sized grant hgrant) hresize
      simp only [Except.isOk, Except.toBool, and_true]
      refine h.change hget ?_ ?_ hexchange
      · exact hown
      · intro hfalse
        cases hfalse

theorem Kept.step (h : Kept start id custody n) (op : GrantOp) :
    Kept start id (custody.step id op) (custody.strays id op + n) := by
  cases op with
  | empty =>
    rw [strays, Nat.zero_add]
    exact h.add rfl (fun _ => rfl) (.empty custody.host id)
  | allocate size =>
    rw [strays, Nat.zero_add]
    refine h.keep ?_ fun error host => Grant.allocate_error
    intro grant host hresult
    obtain ⟨rfl, hexchange⟩ := Grant.allocate_ok hresult
    exact ⟨rfl, rfl, hexchange⟩
  | zeroed count size =>
    rw [strays, Nat.zero_add]
    refine h.keep ?_ fun error host => Grant.zeroed_error
    intro grant host hresult
    obtain ⟨rfl, hexchange⟩ := Grant.zeroed_ok hresult
    exact ⟨rfl, rfl, hexchange⟩
  | resize index size =>
    cases hget : custody.grants[index]? with
    | none => simpa [Custody.step, strays, hget] using h
    | some grant => simpa [Custody.step, hget] using h.resize hget size
  | drop index =>
    rw [strays, Nat.zero_add]
    cases hget : custody.grants[index]? with
    | none => simpa [Custody.step, hget] using h
    | some grant => simpa [Custody.step, hget] using h.drop hget

theorem Kept.run (h : Kept start id custody n) (ops : List GrantOp) :
    Kept start id (custody.run id ops) (custody.allStrays id ops + n) := by
  induction ops generalizing custody n with
  | nil => simpa [Custody.run, allStrays] using h
  | cons op ops ih =>
    -- The strays of the first step are there before the others run.
    rw [allStrays, Nat.add_comm (custody.strays id op), Nat.add_assoc]
    exact ih (h.step op)

/-- The counters of a provider that was fresh at the start. -/
theorem Kept.counters {policy : Policy} (h : Kept start id custody n)
    (hfresh : start.provider id = .tracking { policy }) :
    ∃ ledger, custody.host.provider id = .tracking ledger ∧
      ledger.liveBytes.toNat = Grant.heldBytes id custody.grants % 2 ^ 64 ∧
      ledger.liveBlocks.toNat = (custody.grants.countP (·.held) + n) % 2 ^ 64 := by
  have hreset := h.exchange.reset id
  have hbytes := h.exchange.bytes id
  have hblocks := h.exchange.blocks id
  rw [hfresh] at hreset hbytes hblocks
  have hbytes := hbytes rfl
  have hblocks := hblocks rfl
  -- A provider that counts goes on counting, whatever it is asked for.
  cases hprovider : custody.host.provider id with
  | tracking ledger =>
    rw [hprovider] at hbytes hblocks
    have := ledger.liveBytes.toNat_lt
    have := ledger.liveBlocks.toNat_lt
    simp only [Provider.liveBytes, Provider.liveBlocks, Provider.ledger?, Option.map_some,
      Option.getD_some, Grant.heldBytes_append, Grant.heldBlocks_append, Grant.heldBytes_nil,
      Grant.heldBlocks_nil, Grant.heldBytes_hollow, Grant.heldBlocks_hollow,
      Grant.heldBlocks_own h.own, UInt64.toNat_zero] at hbytes hblocks
    refine ⟨ledger, rfl, by omega, by omega⟩
  | system | unwritable =>
    rw [hprovider] at hreset
    cases hreset

/-- After any run on a fresh provider, limited or not, its bytes are those of the grants, and its
blocks are those that are held and the strays. With all grants dropped it is balanced where there
were no strays, or so many that the counter is back at zero. -/
theorem liveBlocks_of_run {policy : Policy} (hfresh : host.provider id = .tracking { policy })
    (ops : List GrantOp) :
    let start : Custody := { host }
    let custody := start.run id ops
    ∃ ledger, custody.host.provider id = .tracking ledger ∧
      ledger.liveBytes.toNat = Grant.heldBytes id custody.grants % 2 ^ 64 ∧
      ledger.liveBlocks.toNat =
        (custody.grants.countP (·.held) + start.allStrays id ops) % 2 ^ 64 ∧
      (custody.grants = [] →
        (ledger.isBalanced = true ↔ start.allStrays id ops % 2 ^ 64 = 0)) := by
  intro start custody
  have hkept : Kept host id custody (start.allStrays id ops) := (kept_start host id).run ops
  obtain ⟨ledger, hledger, hbytes, hblocks⟩ := hkept.counters hfresh
  refine ⟨ledger, hledger, hbytes, hblocks, ?_⟩
  intro hnone
  rw [hnone, Grant.heldBytes_nil, Nat.zero_mod] at hbytes
  rw [hnone, List.countP_nil, Nat.zero_add] at hblocks
  have hzero : ledger.liveBytes = 0 := UInt64.toNat_inj.1 hbytes
  rw [← hblocks, Ledger.isBalanced, hzero]
  simp [← UInt64.toNat_inj]

/-- A block of size zero that is resized twice leaves two strays behind. -/
theorem liveBlocks_of_run_hollow :
    let host : Host := { providers := [.tracking {}] }
    let ops : List GrantOp := [.allocate 0, .resize 0 0, .resize 0 5]
    host.provider 0 = .tracking {} ∧
      ∃ ledger, (({ host } : Custody).run 0 ops).host.provider 0 = .tracking ledger ∧
        ledger.liveBytes.toNat = 5 ∧ ledger.liveBlocks.toNat = 3 := by
  intro host ops
  obtain ⟨ledger, hledger, hbytes, hblocks, -⟩ :=
    @liveBlocks_of_run host 0 .unlimited rfl ops
  refine ⟨rfl, ledger, hledger, hbytes.trans ?_, hblocks.trans ?_⟩ <;> decide +kernel

/-- No grant is left, and yet a block is counted: one of size zero was resized before it was
dropped. -/
theorem stray_of_resized_zero :
    let custody := ({ host := { providers := [.tracking {}] } } : Custody).run 0
      [.allocate 0, .resize 0 5, .drop 0]
    custody.grants = [] ∧ (custody.host.provider 0).liveBlocks = 1 ∧
      (custody.host.provider 0).ledger?.map Ledger.isBalanced = some false := by
  decide +kernel

end Custody

end Disassembly
