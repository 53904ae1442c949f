import Disassembly.Proofs.Memory.Custody
import Disassembly.Proofs.Memory.Limit
/-!
# Grants within a limit

Grants and payloads are requested from one provider that has a limit, resized and dropped. What the
provider counts in bytes is the exact sum of the sizes of the grants, so that its counter never
wraps. A request is granted just where that sum stays within the limit, and one that is refused
leaves the counters and all grants as they were.
-/
namespace Disassembly

/-- What can be done with grants and payloads. A payload is known by the grant that pays for it,
and is dropped with that grant. -/
inductive BlockOp : Type 1 where
  | grant (op : GrantOp)
  | payload {α : Type} [Footprint α] (value : α)

namespace Payload

variable {α : Type} [Footprint α]

def allocateGrant (host : Host) (id : ProviderId) (value : α) : Except Error Grant × Host :=
  let (answer, host) := allocate host id value
  (answer.map Payload.grant, host)

theorem allocateGrant_eq (host : Host) (id : ProviderId) (value : α) :
    allocateGrant host id value = Grant.allocate host id (Footprint.cost value) := by
  rw [allocateGrant, allocate]
  cases Grant.allocate host id (Footprint.cost value) with
  | mk answer host' => cases answer <;> rfl

end Payload

/-- Where all grants are of one provider, and none has a size without a block, the bytes that are
held are those of all grants. -/
theorem Grant.heldBytes_own {id : ProviderId} {grants : List Grant}
    (hown : ∀ grant ∈ grants, grant.provider = id) (hsized : ∀ grant ∈ grants, grant.Sized) :
    heldBytes id grants = (grants.map (·.size.toNat)).sum := by
  induction grants with
  | nil => rfl
  | cons grant grants ih =>
    have hfirst : heldBytes id [grant] = grant.size.toNat := by
      rw [heldBytes_singleton]
      cases hheld : grant.held with
      | true => rw [if_pos ⟨rfl, hown grant List.mem_cons_self⟩]
      | false =>
        rw [hsized grant List.mem_cons_self hheld]
        simp
    have hrest := ih (fun other hmem => hown other (List.mem_cons_of_mem _ hmem))
      (fun other hmem => hsized other (List.mem_cons_of_mem _ hmem))
    rw [← List.singleton_append, heldBytes_append, hfirst, hrest]
    simp

namespace Custody

def bytes (custody : Custody) : Nat := (custody.grants.map (·.size.toNat)).sum

/-- The request that an operation makes, with its answer. To begin with an empty grant, to drop one
and to resize one that is not there is to request nothing. -/
def request (id : ProviderId) (custody : Custody) : BlockOp → Option (Except Error Grant × Host)
  | .grant (.allocate size) => some (Grant.allocate custody.host id size)
  | .grant (.zeroed count size) => some (Grant.zeroed custody.host id count size)
  | .grant (.resize index size) =>
    custody.grants[index]?.map fun grant => grant.resize custody.host size
  | @BlockOp.payload _ _ value => some (Payload.allocateGrant custody.host id value)
  | .grant .empty | .grant (.drop _) => none

def perform (id : ProviderId) (custody : Custody) : BlockOp → Custody
  | .grant op => custody.step id op
  | @BlockOp.payload _ _ value => custody.keep (Payload.allocateGrant custody.host id value)

def performAll (id : ProviderId) (custody : Custody) (ops : List BlockOp) : Custody :=
  ops.foldl (perform id) custody

def growth (custody : Custody) : BlockOp → Nat
  | .grant (.allocate size) => size.toNat
  | .grant (.zeroed count size) => count.toNat * size.toNat
  | .grant (.resize index size) =>
    match custody.grants[index]? with
    | some grant => size.toNat - grant.size.toNat
    | none => 0
  | @BlockOp.payload _ _ value => (Footprint.cost value).toNat
  | .grant .empty | .grant (.drop _) => 0

def shrinkage (custody : Custody) : BlockOp → Nat
  | .grant (.resize index size) =>
    match custody.grants[index]? with
    | some grant => grant.size.toNat - size.toNat
    | none => 0
  | .grant (.drop index) =>
    match custody.grants[index]? with
    | some grant => grant.size.toNat
    | none => 0
  | .grant .empty | .grant (.allocate _) | .grant (.zeroed _ _) | @BlockOp.payload _ _ _ => 0

variable {start host : Host} {id : ProviderId} {limit size : UInt64} {custody : Custody}
  {op : BlockOp} {grant : Grant} {index n : Nat}

theorem bytes_add (custody : Custody) (host : Host) (grant : Grant) :
    ({ host, grants := custody.grants ++ [grant] } : Custody).bytes =
      custody.bytes + grant.size.toNat := by
  simp [bytes]

theorem bytes_erase (hget : custody.grants[index]? = some grant) (host : Host) :
    ({ host, grants := custody.grants.eraseIdx index } : Custody).bytes + grant.size.toNat =
      custody.bytes := by
  obtain ⟨hlt, rfl⟩ := List.getElem?_eq_some_iff.1 hget
  have hsum := ((List.getElem_cons_eraseIdx_perm hlt).map (·.size.toNat)).sum_nat
  rw [List.map_cons, List.sum_cons] at hsum
  rw [Nat.add_comm]
  exact hsum

theorem bytes_set (hget : custody.grants[index]? = some grant) (host : Host) (other : Grant) :
    ({ host, grants := custody.grants.set index other } : Custody).bytes + grant.size.toNat =
      custody.bytes + other.size.toNat := by
  obtain ⟨hlt, -⟩ := List.getElem?_eq_some_iff.1 hget
  have hsum := ((List.set_perm_cons_eraseIdx hlt other).map (·.size.toNat)).sum_nat
  have herase := bytes_erase hget host
  rw [List.map_cons, List.sum_cons] at hsum
  simp only [bytes] at herase ⊢
  omega

theorem Kept.perform (h : Kept start id custody n) (op : BlockOp) :
    ∃ strays, Kept start id (custody.perform id op) strays := by
  cases op with
  | grant op => exact ⟨_, h.step op⟩
  | payload value =>
    refine ⟨n, h.keep ?_ ?_⟩
    · intro grant host hresult
      rw [Payload.allocateGrant_eq] at hresult
      obtain ⟨rfl, hexchange⟩ := Grant.allocate_ok hresult
      exact ⟨rfl, rfl, hexchange⟩
    · intro error host hresult
      rw [Payload.allocateGrant_eq] at hresult
      exact Grant.allocate_error hresult

structure Bounded (start : Host) (id : ProviderId) (limit : UInt64) (custody : Custody) : Prop where
  kept : ∃ strays, Kept start id custody strays
  within : custody.bytes ≤ limit.toNat

theorem bounded_start (host : Host) (id : ProviderId) (limit : UInt64) :
    Bounded host id limit { host } :=
  ⟨⟨0, kept_start host id⟩, Nat.zero_le _⟩

theorem Bounded.own (h : Bounded start id limit custody)
    (hget : custody.grants[index]? = some grant) : grant.provider = id := by
  obtain ⟨strays, hkept⟩ := h.kept
  exact hkept.own grant (List.mem_of_getElem? hget)

theorem Bounded.limited (h : Bounded start id limit custody)
    (hfresh : start.provider id = .tracking { policy := .limit limit }) :
    custody.host.Limited id limit custody.bytes := by
  obtain ⟨⟨strays, hkept⟩, hwithin⟩ := h
  obtain ⟨ledger, hledger, hbytes, -⟩ := hkept.counters hfresh
  have hreset := hkept.exchange.reset id
  rw [hledger, hfresh] at hreset
  have hword : custody.bytes < 2 ^ 64 := Nat.lt_of_le_of_lt hwithin limit.toNat_lt
  refine ⟨ledger, hledger, by simpa [Provider.reset] using hreset, ?_⟩
  rw [hbytes, Grant.heldBytes_own hkept.own hkept.sized]
  exact Nat.mod_eq_of_lt hword

inductive Performed (id : ProviderId) (limit : UInt64) (custody : Custody) (op : BlockOp) :
    Option (Except Error Grant × Host) → Custody → Prop where
  | done {after : Custody} : custody.growth op = 0 →
      after.bytes + custody.shrinkage op = custody.bytes → Performed id limit custody op none after
  | granted {grant : Grant} {host : Host} {grants : List Grant} :
      custody.bytes + custody.growth op ≤ limit.toNat →
      ({ host, grants } : Custody).bytes + custody.shrinkage op =
        custody.bytes + custody.growth op →
      Performed id limit custody op (some (.ok grant, host)) { host, grants }
  | refused {host : Host} {grants : List Grant} : limit.toNat < custody.bytes + custody.growth op →
      custody.host.Exchange grants host grants →
      Performed id limit custody op (some (.error .outOfMemory, host)) { custody with host }

section Performed

variable (hlimit : limit.toNat < 2 ^ 64 - 1)
  (hfresh : start.provider id = .tracking { policy := .limit limit })
include hlimit hfresh

theorem Bounded.performed_allocate (h : Bounded start id limit custody)
    (hrequest : custody.request id op = some (Grant.allocate custody.host id size))
    (hperform : custody.perform id op = custody.keep (Grant.allocate custody.host id size))
    (hgrowth : custody.growth op = size.toNat) (hshrinkage : custody.shrinkage op = 0) :
    Performed id limit custody op (custody.request id op) (custody.perform id op) := by
  have hlimited := h.limited hfresh
  rw [hrequest, hperform]
  by_cases hroom : custody.bytes + size.toNat ≤ limit.toNat
  · obtain ⟨host', hallocate, -⟩ := Grant.allocate_of_room hlimit hlimited hroom
    rw [hallocate]
    apply Performed.granted
    · rw [hgrowth]
      exact hroom
    · rw [hgrowth, hshrinkage]
      exact bytes_add custody host' _
  · obtain ⟨host', hallocate⟩ := Grant.allocate_of_full hlimit hlimited (Nat.not_le.1 hroom)
    rw [hallocate]
    apply Performed.refused
    · rw [hgrowth]
      exact Nat.not_le.1 hroom
    · exact Grant.allocate_error hallocate

theorem Bounded.performed_zeroed (h : Bounded start id limit custody) (count size : UInt64) :
    Performed id limit custody (.grant (.zeroed count size))
      (custody.request id (.grant (.zeroed count size)))
      (custody.perform id (.grant (.zeroed count size))) := by
  by_cases hword : count.toNat * size.toNat < UInt64.size
  · have hzeroed := @Grant.zeroed_of_lt custody.host id _ _ hword
    apply h.performed_allocate hlimit hfresh
    · rw [request, hzeroed]
    · rw [perform, step, hzeroed]
    · rw [growth, UInt64.toNat_mul, Nat.mod_eq_of_lt hword]
    · rfl
  · have hzeroed := @Grant.zeroed_of_ge custody.host id _ _ hword
    have hsize : UInt64.size = 2 ^ 64 := rfl
    rw [request, perform, step, hzeroed]
    apply Performed.refused
    · -- A product that is no word is larger than any limit.
      rw [growth]
      omega
    · exact Grant.zeroed_error hzeroed

theorem Bounded.performed_resize (h : Bounded start id limit custody) (index : Nat)
    (size : UInt64) :
    Performed id limit custody (.grant (.resize index size))
      (custody.request id (.grant (.resize index size)))
      (custody.perform id (.grant (.resize index size))) := by
  cases hget : custody.grants[index]? with
  | none =>
    simp only [request, perform, step, hget, Option.map_none]
    apply Performed.done
    · simp only [growth, hget]
    · simp only [shrinkage, hget, Nat.add_zero]
  | some grant =>
    have hgrowth : custody.growth (.grant (.resize index size)) =
        size.toNat - grant.size.toNat := by simp only [growth, hget]
    have hshrinkage : custody.shrinkage (.grant (.resize index size)) =
        grant.size.toNat - size.toNat := by simp only [shrinkage, hget]
    have hlimited := h.limited hfresh
    have hown := h.own hget
    simp only [request, perform, step, hget, Option.map_some]
    by_cases hroom : custody.bytes + (size.toNat - grant.size.toNat) ≤ limit.toNat
    · obtain ⟨host', hresize⟩ := Grant.resize_of_room hlimit hlimited hown h.within hroom
      have hset := bytes_set hget host' { grant with size, held := true }
      rw [hresize]
      apply Performed.granted
      · rw [hgrowth]
        exact hroom
      · rw [hgrowth, hshrinkage]
        dsimp only at hset ⊢
        omega
    · obtain ⟨host', hresize⟩ :=
        Grant.resize_of_full hlimit hlimited hown h.within (Nat.not_le.1 hroom)
      rw [hresize]
      apply Performed.refused
      · rw [hgrowth]
        exact Nat.not_le.1 hroom
      · exact Grant.resize_error hresize

theorem Bounded.performed (h : Bounded start id limit custody) (op : BlockOp) :
    Performed id limit custody op (custody.request id op) (custody.perform id op) := by
  cases op with
  | grant op =>
    cases op with
    | empty => exact .done rfl (bytes_add custody custody.host (.empty id))
    | allocate size => exact h.performed_allocate hlimit hfresh rfl rfl rfl rfl
    | zeroed count size => exact h.performed_zeroed hlimit hfresh count size
    | resize index size => exact h.performed_resize hlimit hfresh index size
    | drop index =>
      apply Performed.done rfl
      cases hget : custody.grants[index]? with
      | none => simp only [perform, step, shrinkage, hget, Nat.add_zero]
      | some grant =>
        simp only [perform, step, shrinkage, hget]
        exact bytes_erase hget _
  | payload value =>
    have hpayload := Payload.allocateGrant_eq custody.host id value
    apply h.performed_allocate hlimit hfresh
    · rw [request, hpayload]
    · rw [perform, hpayload]
    · rfl
    · rfl

theorem Bounded.perform (h : Bounded start id limit custody) (op : BlockOp) :
    Bounded start id limit (custody.perform id op) := by
  obtain ⟨strays, hkept⟩ := h.kept
  have hwithin := h.within
  have hperformed := h.performed hlimit hfresh op
  refine ⟨hkept.perform op, ?_⟩
  generalize custody.request id op = request, custody.perform id op = after at hperformed ⊢
  cases hperformed with
  | done hgrowth hbytes => omega
  | granted hroom hbytes => omega
  | refused => exact hwithin

theorem Bounded.performAll (h : Bounded start id limit custody) (ops : List BlockOp) :
    Bounded start id limit (custody.performAll id ops) := by
  induction ops generalizing custody with
  | nil => exact h
  | cons op ops ih => exact ih (h.perform hlimit hfresh op)

theorem Bounded.resize_of_le (h : Bounded start id limit custody)
    (hget : custody.grants[index]? = some grant) (hle : size ≤ grant.size) :
    ∃ host', grant.resize custody.host size = (.ok { grant with size, held := true }, host') := by
  have hnone : size.toNat - grant.size.toNat = 0 :=
    Nat.sub_eq_zero_of_le (UInt64.le_iff_toNat_le.1 hle)
  apply Grant.resize_of_room hlimit (h.limited hfresh) (h.own hget) h.within
  rw [hnone]
  exact h.within

end Performed

/-- The sum of the sizes of all grants is taken without a bound here, and is what the provider
counts. A request that would make it larger than the limit is refused and changes nothing, and any
other is granted. A product of count and size that is no word is refused without a call, and a
grant that does not grow is always resized. -/
theorem liveBytes_of_performAll (hlimit : limit.toNat < 2 ^ 64 - 1)
    (hfresh : host.provider id = .tracking { policy := .limit limit }) (ops : List BlockOp) :
    let custody := ({ host } : Custody).performAll id ops
    (∃ ledger, custody.host.provider id = .tracking ledger ∧
        ledger.liveBytes.toNat = custody.bytes) ∧
      custody.bytes ≤ limit.toNat ∧
      (∀ op answer host', custody.request id op = some (answer, host') →
        (custody.perform id op).host = host' ∧
        (answer.isOk ↔ custody.bytes + custody.growth op ≤ limit.toNat) ∧
        (answer.isOk → (custody.perform id op).bytes + custody.shrinkage op =
          custody.bytes + custody.growth op) ∧
        ∀ error, answer = .error error → error = .outOfMemory ∧
          (custody.perform id op).grants = custody.grants ∧
          (host'.provider id).liveBytes = (custody.host.provider id).liveBytes ∧
          (host'.provider id).liveBlocks = (custody.host.provider id).liveBlocks) ∧
      (∀ count size : UInt64, 2 ^ 64 ≤ count.toNat * size.toNat →
        ∃ host', Grant.zeroed custody.host id count size = (.error .outOfMemory, host') ∧
          host'.provider id = custody.host.provider id) ∧
      ∀ (index : Nat) (grant : Grant) (size : UInt64), custody.grants[index]? = some grant →
        size ≤ grant.size →
        ∃ host', grant.resize custody.host size =
          (.ok { grant with size, held := true }, host') := by
  intro custody
  have h : Bounded host id limit custody :=
    (bounded_start host id limit).performAll hlimit hfresh ops
  -- Below the limit the counter cannot wrap, so that it is the sum itself.
  obtain ⟨ledger, hledger, -, hbytes⟩ := h.limited hfresh
  refine ⟨⟨ledger, hledger, hbytes⟩, h.within, ?_, ?_, ?_⟩
  · intro op answer host' hrequest
    have hperformed := h.performed hlimit hfresh op
    rw [hrequest] at hperformed
    generalize custody.perform id op = after at hperformed ⊢
    cases hperformed with
    | granted hroom hafter =>
      refine ⟨rfl, iff_of_true rfl hroom, fun _ => hafter, ?_⟩
      rintro error ⟨⟩
    | refused hfull hexchange =>
      refine ⟨rfl, iff_of_false Bool.false_ne_true (Nat.not_le.2 hfull), ?_, ?_⟩
      · intro hok
        cases hok
      · rintro error ⟨⟩
        exact ⟨rfl, rfl, hexchange.counters_eq id⟩
  · intro count size hproduct
    exact ⟨_, Grant.zeroed_of_ge (Nat.not_lt.2 hproduct),
      Host.provider_setProvider_self hledger _⟩
  · intro index grant size hget hle
    exact h.resize_of_le hlimit hfresh hget hle

/-- A grant grows up to the limit of 100 bytes but not beyond it, and the largest product of two
words is refused. -/
theorem liveBytes_of_performAll_hundred :
    let host : Host := { providers := [.tracking { policy := .limit 100 }] }
    let ops : List BlockOp := [.grant .empty, .grant (.resize 0 80), .grant (.resize 0 160),
      .grant (.zeroed (-1) (-1)), .grant (.allocate 20)]
    let custody := ({ host } : Custody).performAll 0 ops
    host.provider 0 = .tracking { policy := .limit 100 } ∧ custody.bytes = 100 ∧
      (∃ ledger, custody.host.provider 0 = .tracking ledger ∧ ledger.liveBytes.toNat = 100) ∧
      (∀ answer host', custody.request 0 (.grant (.allocate 1)) = some (answer, host') →
        ¬ answer.isOk) ∧
      ∃ host', Grant.zeroed custody.host 0 (-1) (-1) = (.error .outOfMemory, host') ∧
        host'.provider 0 = custody.host.provider 0 := by
  intro host ops custody
  have hbytes : custody.bytes = 100 := by decide +kernel
  obtain ⟨⟨ledger, hledger, hlive⟩, -, hrequests, hproducts, -⟩ :=
    @liveBytes_of_performAll host 0 100 (by decide) rfl ops
  refine ⟨rfl, hbytes, ⟨ledger, hledger, hlive.trans hbytes⟩, ?_, ?_⟩
  · intro answer host' hrequest hok
    have hroom : custody.bytes + 1 ≤ 100 := (hrequests _ _ _ hrequest).2.1.1 hok
    omega
  · exact hproducts (-1) (-1) (by decide)

end Custody

end Disassembly
