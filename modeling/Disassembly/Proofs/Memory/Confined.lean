import Disassembly.Proofs.Memory.Exchange
/-!
# Requests to one provider

A computation that is confined to a provider makes all its requests there. What it comes to, and
what becomes of the provider, depends on that provider alone. Any other provider sees no more of it
than that its own blocks come back.
-/
namespace Disassembly

def Provider.giveBack (provider : Provider) (grants : List Grant) : Provider :=
  grants.foldl (fun provider grant => provider.release grant.size) provider

theorem Provider.giveBack_append (provider : Provider) (a b : List Grant) :
    provider.giveBack (a ++ b) = (provider.giveBack a).giveBack b := List.foldl_append

namespace Grant

variable {id : ProviderId} {grant : Grant} {a b : List Grant}

def AllFrom (id : ProviderId) (grants : List Grant) : Prop := ∀ grant ∈ grants, grant.provider = id

theorem allFrom_nil : AllFrom id [] := fun _ h => absurd h List.not_mem_nil

theorem allFrom_singleton (h : grant.provider = id) : AllFrom id [grant] := by
  intro other hmem
  rw [List.mem_singleton.1 hmem, h]

theorem allFrom_append : AllFrom id (a ++ b) ↔ AllFrom id a ∧ AllFrom id b := List.forall_mem_append

theorem AllFrom.perm (h : AllFrom id a) (hperm : a.Perm b) : AllFrom id b :=
  fun grant hmem => h grant (hperm.mem_iff.2 hmem)

theorem blocks_append (id : ProviderId) (a b : List Grant) :
    blocks id (a ++ b) = blocks id a ++ blocks id b := List.filter_append _ _

theorem blocks_cons (id : ProviderId) (grant : Grant) (grants : List Grant) :
    blocks id (grant :: grants) =
      if grant.held ∧ grant.provider = id then grant :: blocks id grants else blocks id grants := by
  simp [blocks, List.filter_cons]

theorem provider_release (grant : Grant) (host : Host) (id : ProviderId) :
    (grant.release host).provider id = (host.provider id).giveBack (blocks id [grant]) := by
  have hat := host.provider_setProvider grant.provider (f := (·.release grant.size)) rfl id
  rw [blocks_cons]
  unfold release
  by_cases hheld : grant.held
  · rw [if_pos hheld, Host.release, hat]
    by_cases hid : grant.provider = id
    · rw [if_pos hid.symm, if_pos ⟨hheld, hid⟩, hid]
      rfl
    · rw [if_neg (Ne.symm hid), if_neg fun h => hid h.2]
      rfl
  · rw [if_neg hheld, if_neg fun h => hheld h.1]
    rfl

theorem provider_releaseAll (grants : List Grant) (host : Host) (id : ProviderId) :
    (releaseAll grants host).provider id = (host.provider id).giveBack (blocks id grants) := by
  induction grants generalizing host with
  | nil => rfl
  | cons grant grants ih =>
    have hcons : blocks id (grant :: grants) = blocks id [grant] ++ blocks id grants :=
      blocks_append id [grant] grants
    rw [hcons, Provider.giveBack_append, ← provider_release]
    exact ih (grant.release host)

end Grant

open Grant (AllFrom)

/-- A computation that makes its requests to one provider and comes to a result of a certain kind.
For each result, `freed` are the blocks that were given back on the way and that may be from other
providers. -/
structure Confined {α : Type} (id : ProviderId) (freed : α → List Grant) (post : α → Prop)
    (run : Host → α × Host) : Prop where
  result : ∀ host, post (run host).1
  own : ∀ host host', host.provider id = host'.provider id →
    (run host).1 = (run host').1 ∧ (run host).2.provider id = (run host').2.provider id
  others : ∀ host other, other ≠ id → (run host).2.provider other =
    (host.provider other).giveBack (Grant.blocks other (freed (run host).1))

namespace Confined

variable {α β : Type} {id : ProviderId} {freed : α → List Grant} {post : α → Prop}
  {run run' : Host → α × Host} {host host' : Host}

theorem alike (h : Confined id freed post run)
    (halike : ∀ other, host.provider other = host'.provider other) :
    (run host).1 = (run host').1 ∧
      ∀ other, (run host).2.provider other = (run host').2.provider other := by
  obtain ⟨hresult, hown⟩ := h.own host host' (halike id)
  refine ⟨hresult, fun other => ?_⟩
  by_cases hother : other = id
  · rw [hother, hown]
  · rw [h.others host other hother, h.others host' other hother, hresult, halike other]

theorem of_eq (h : Confined id freed post run) (heq : ∀ host, run' host = run host) :
    Confined id freed post run' := by
  rwa [funext heq]

theorem of_alike (h : Confined id freed post run) (halike : ∀ host,
      (run' host).1 = (run host).1 ∧ (run' host).2.provider = (run host).2.provider) :
    Confined id freed post run' := by
  constructor
  · intro host
    rw [(halike host).1]
    exact h.result host
  · intro host host' hsame
    rw [(halike host).1, (halike host').1, (halike host).2, (halike host').2]
    exact h.own host host' hsame
  · intro host other hother
    rw [(halike host).1, (halike host).2]
    exact h.others host other hother

theorem pure {value : α} (hfreed : freed value = []) (hpost : post value) :
    Confined id freed post fun host => (value, host) := by
  refine ⟨fun _ => hpost, fun _ _ h => ⟨rfl, h⟩, fun host other _ => ?_⟩
  rw [hfreed]
  rfl

theorem read (id : ProviderId) (look : Provider → β) :
    Confined id (fun _ => []) (fun _ => True) fun host => (look (host.provider id), host) :=
  ⟨fun _ => trivial, fun _ _ h => ⟨congrArg look h, h⟩, fun _ _ _ => rfl⟩

/-- Going on with a result of which something is known. -/
theorem bind {next : α → Host → β × Host} {freed : β → List Grant} {post' : β → Prop}
    (h : Confined id (fun _ => []) post run)
    (k : ∀ value, post value → Confined id freed post' (next value)) :
    Confined id freed post' fun host => next (run host).1 (run host).2 := by
  constructor
  · intro host
    exact (k _ (h.result host)).result _
  · intro host host' hsame
    obtain ⟨hresult, hown⟩ := h.own host host' hsame
    rw [← hresult]
    exact (k _ (h.result host)).own _ _ hown
  · intro host other hother
    rw [(k _ (h.result host)).others _ other hother, h.others host other hother]
    rfl

theorem map {freed' : β → List Grant} {post' : β → Prop} (h : Confined id freed post run)
    (f : α → β) (hfreed : ∀ value, freed' (f value) = freed value)
    (hpost : ∀ value, post value → post' (f value)) :
    Confined id freed' post' fun host => (f (run host).1, (run host).2) := by
  refine ⟨fun host => hpost _ (h.result host), ?_, ?_⟩
  · intro host host' hsame
    obtain ⟨hresult, hown⟩ := h.own host host' hsame
    exact ⟨congrArg f hresult, hown⟩
  · intro host other hother
    rw [hfreed]
    exact h.others host other hother

theorem after_note (h : Confined id freed post run) (event : LogEvent) :
    Confined id freed post fun host => run (host.note event) :=
  ⟨fun _ => h.result _, fun _ _ hsame => h.own _ _ hsame,
    fun _ other hother => h.others _ other hother⟩

theorem after_release (h : Confined id freed post run) (grants : List Grant) :
    Confined id (fun value => grants ++ freed value) post
      fun host => run (Grant.releaseAll grants host) := by
  refine ⟨fun host => h.result _, ?_, ?_⟩
  · intro host host' hsame
    apply h.own
    rw [Grant.provider_releaseAll, Grant.provider_releaseAll, hsame]
  · intro host other hother
    rw [h.others _ other hother, Grant.provider_releaseAll, Grant.blocks_append,
      Provider.giveBack_append]

theorem after_own_release (h : Confined id freed post run) {grants : List Grant}
    (hgrants : AllFrom id grants) :
    Confined id freed post fun host => run (Grant.releaseAll grants host) := by
  have hrun := h.after_release grants
  refine ⟨hrun.result, hrun.own, fun host other hother => ?_⟩
  rw [hrun.others host other hother, Grant.blocks_append, Host.blocks_of_other hgrants hother]
  rfl

/-- A request to the provider. One that was never given out is the system, which no request
changes. -/
theorem ask (id : ProviderId) {f : Provider → β × Provider} (hsystem : (f .system).2 = .system) :
    Confined id (fun _ => []) (fun _ => True) fun host =>
      ((f (host.provider id)).1, host.setProvider id (f (host.provider id)).2) := by
  have hat := fun host : Host =>
    host.provider_setProvider id (f := fun provider => (f provider).2) hsystem
  refine ⟨fun _ => trivial, ?_, ?_⟩
  · intro host host' hsame
    refine ⟨by rw [hsame], ?_⟩
    rw [hat, hat, if_pos rfl, if_pos rfl, hsame]
  · intro host other hother
    rw [hat, if_neg hother]
    rfl

end Confined

def YieldsFrom {α : Type} (id : ProviderId) (grants : α → List Grant) : Except Error α → Prop
  | .ok value => AllFrom id (grants value)
  | .error _ => True

abbrev Draws {α : Type} (id : ProviderId) (grants : α → List Grant)
    (run : Host → Except Error α × Host) : Prop :=
  Confined id (fun _ => []) (YieldsFrom id grants) run

namespace Draws

variable {α β : Type} {id : ProviderId} {grants : α → List Grant}
  {run : Host → Except Error α × Host}

theorem ok {value : α} (h : AllFrom id (grants value)) :
    Draws id grants fun host => (.ok value, host) := .pure rfl h

theorem error (error : Error) : Draws id grants fun host => (.error error, host) :=
  .pure rfl trivial

theorem elim (h : Draws id grants run) {run' : Host → β × Host} {fail : Error → Host → β × Host}
    {next : α → Host → β × Host}
    (herror : ∀ host error host', run host = (.error error, host') → run' host = fail error host')
    (hok : ∀ host value host', run host = (.ok value, host') → run' host = next value host')
    {freed : β → List Grant} {post : β → Prop}
    (hfail : ∀ error, Confined id freed post (fail error))
    (hnext : ∀ value, AllFrom id (grants value) → Confined id freed post (next value)) :
    Confined id freed post run' := by
  have hbind : ∀ answer, YieldsFrom id grants answer → Confined id freed post fun host =>
      match answer with
      | .error error => fail error host
      | .ok value => next value host := by
    intro answer hanswer
    cases answer with
    | error error => exact hfail error
    | ok value => exact hnext value hanswer
  refine (h.bind hbind).of_eq fun host => ?_
  cases hrun : run host with
  | mk answer host' =>
    cases answer with
    | error error => exact herror host error host' hrun
    | ok value => exact hok host value host' hrun

end Draws

namespace Grant

variable (id : ProviderId)

theorem allocate_draws (size : UInt64) :
    Draws id (fun grant => [grant]) fun host => allocate host id size := by
  have hask := Confined.ask id (f := fun provider => provider.allocate size) rfl
  refine (hask.map (fun answer => answer.map fun _ => { provider := id, size, held := true })
    (fun _ => rfl) ?_).of_eq fun host => ?_
  · rintro (error | granted) -
    · trivial
    · exact allFrom_singleton rfl
  · rw [allocate, Host.allocate]
    cases (host.provider id).allocate size with
    | mk answer provider => cases answer <;> rfl

theorem zeroed_draws (count size : UInt64) :
    Draws id (fun grant => [grant]) fun host => zeroed host id count size := by
  have hsystem : (Provider.system.allocateZeroed count size).2 = .system := by
    unfold Provider.allocateZeroed
    split <;> rfl
  have hask := Confined.ask id (f := fun provider => provider.allocateZeroed count size) hsystem
  refine (hask.map
    (fun answer => answer.map fun _ => { provider := id, size := count * size, held := true })
    (fun _ => rfl) ?_).of_eq fun host => ?_
  · rintro (error | granted) -
    · trivial
    · exact allFrom_singleton rfl
  · rw [zeroed, Host.allocateZeroed]
    cases (host.provider id).allocateZeroed count size with
    | mk answer provider => cases answer <;> rfl

variable {id}

theorem resize_draws {grant : Grant} (h : grant.provider = id) (size : UInt64) :
    Draws id (fun grant => [grant]) fun host => grant.resize host size := by
  have hask := Confined.ask id (f := fun provider => provider.reallocate grant.size size) rfl
  refine (hask.map (fun answer => answer.map fun _ => { grant with size, held := true })
    (fun _ => rfl) ?_).of_eq fun host => ?_
  · rintro (error | granted) -
    · trivial
    · exact allFrom_singleton h
  · rw [resize, Host.reallocate, h]
    cases (host.provider id).reallocate grant.size size with
    | mk answer provider => cases answer <;> rfl

end Grant

theorem Payload.allocate_draws {α : Type} [Footprint α] (id : ProviderId) (value : α) :
    Draws id (fun payload => [payload.grant]) fun host => Payload.allocate host id value := by
  have hgrant := Grant.allocate_draws id (Footprint.cost value)
  apply hgrant.elim
  · intro host error host' hrun
    rw [allocate, hrun]
  · intro host grant host' hrun
    rw [allocate, hrun]
  · exact Draws.error
  · exact fun grant hfrom => Draws.ok hfrom

end Disassembly
