import Disassembly.Proofs.Engine.Charges
/-!
# Moves of the engine

An operation takes blocks into its hand, from the host or from what is alive, and puts others
back. A move says that nothing is lost on the way: what the hand and the engine hold together
changes just as the counters do. Every operation is a move from an empty hand to an empty hand.
-/
namespace Disassembly

namespace Named

variable {α : Type} {things : Named α}

def grantsUnder (things : Named α) (grants : α → List Grant) (name : String) : List Grant :=
  ((things.find? name).map grants).getD []

theorem grants_perm (hd : things.Distinct) (grants : α → List Grant) (name : String) :
    (things.values.flatMap grants).Perm
      (things.grantsUnder grants name ++ (things.erase name).values.flatMap grants) := by
  unfold grantsUnder
  cases hfind : things.find? name with
  | none =>
    rw [erase_of_find?_eq_none hfind]
    exact .refl _
  | some old => exact (values_perm hd hfind).flatMap_right grants

theorem grants_insert_perm (hd : things.Distinct) (grants : α → List Grant) (name : String)
    (thing : α) : ((things.insert name thing).values.flatMap grants).Perm
      (grants thing ++ (things.erase name).values.flatMap grants) :=
  (values_insert hd name thing).flatMap_right grants

theorem grantsUnder_erase (things : Named α) (grants : α → List Grant) (name : String) :
    (things.erase name).grantsUnder grants name = [] := by
  have hnone : (things.erase name).find? name = none :=
    find?_eq_none_iff.2 fun hmem => (mem_names_erase.1 hmem).2 rfl
  rw [grantsUnder, hnone]
  rfl

end Named

namespace Engine

variable {engine engine' engine'' : Engine} {a b c : List Grant} {host' : Host} {name : String}
  {out : String} {session : Session} {output : Output}

def sessionUnder (engine : Engine) (name : String) : List Grant :=
  engine.sessions.grantsUnder Session.grants name

def outputUnder (engine : Engine) (out : String) : List Grant :=
  engine.outputs.grantsUnder Output.grants out

theorem grants_eraseSession (h : engine.Sound) (name : String) : engine.grants.Perm
    (engine.sessionUnder name ++ { engine with sessions := engine.sessions.erase name }.grants) :=
  ((Named.grants_perm h.sessionNames Session.grants name).append_left _).trans
    (List.perm_append_comm_assoc _ _ _)

theorem grants_insertSession (h : engine.Sound) (name : String) (session : Session) :
    { engine with sessions := engine.sessions.insert name session }.grants.Perm
      (session.grants ++ { engine with sessions := engine.sessions.erase name }.grants) :=
  ((Named.grants_insert_perm h.sessionNames Session.grants name session).append_left _).trans
    (List.perm_append_comm_assoc _ _ _)

theorem grants_eraseOutput (h : engine.Sound) (out : String) : engine.grants.Perm
    (engine.outputUnder out ++ { engine with outputs := engine.outputs.erase out }.grants) := by
  have hperm := Named.grants_perm h.outputNames Output.grants out
  have := hperm.append_right (engine.sessions.values.flatMap Session.grants)
  rwa [List.append_assoc] at this

theorem grants_insertOutput (h : engine.Sound) (out : String) (output : Output) :
    { engine with outputs := engine.outputs.insert out output }.grants.Perm
      (output.grants ++ { engine with outputs := engine.outputs.erase out }.grants) := by
  have hperm := Named.grants_insert_perm h.outputNames Output.grants out output
  have := hperm.append_right (engine.sessions.values.flatMap Session.grants)
  rwa [List.append_assoc] at this

structure Moves (engine : Engine) (hand : List Grant) (engine' : Engine) (hand' : List Grant) :
    Prop where
  sound : engine'.Sound
  exchange : engine.host.Exchange (hand ++ engine.grants) engine'.host (hand' ++ engine'.grants)

theorem Moves.trans (h : Moves engine a engine' b) (k : Moves engine' b engine'' c) :
    Moves engine a engine'' c := ⟨k.sound, h.exchange.trans k.exchange⟩

theorem Sound.stays (h : engine.Sound) : Moves engine [] engine [] := ⟨h, .refl _ _⟩

theorem Sound.moves (h : engine.Sound) (hsessions : engine'.sessions = engine.sessions)
    (houtputs : engine'.outputs = engine.outputs)
    (hexchange : engine.host.Exchange a engine'.host b) : Moves engine a engine' b := by
  have hgrants : engine'.grants = engine.grants := by rw [grants, grants, hsessions, houtputs]
  refine ⟨⟨?_, ?_, ?_, ?_⟩, hgrants ▸ hexchange.frame engine.grants⟩
  · exact hsessions ▸ h.sessionNames
  · exact houtputs ▸ h.outputNames
  · exact hsessions ▸ h.sessions
  · exact houtputs ▸ h.outputs

theorem exchange_under {host : Host} {under put rest before after : List Grant}
    (h : host.Exchange (a ++ under) host' (b ++ put)) (hbefore : before.Perm (under ++ rest))
    (hafter : after.Perm (put ++ rest)) : host.Exchange (a ++ before) host' (b ++ after) := by
  apply (h.frame rest).perm
  · rw [List.append_assoc]
    exact hbefore.append_left a
  · rw [List.append_assoc]
    exact hafter.append_left b

theorem Sound.putSession (h : engine.Sound) (hsound : session.Sound)
    (hexchange : engine.host.Exchange (a ++ engine.sessionUnder name) host' (b ++ session.grants)) :
    Moves engine a
      { engine with host := host', sessions := engine.sessions.insert name session } b := by
  refine ⟨⟨Named.distinct_insert h.sessionNames name session, h.outputNames, ?_, h.outputs⟩,
    exchange_under hexchange (grants_eraseSession h name) (grants_insertSession h name session)⟩
  intro other hmem
  rcases Named.mem_values_insert h.sessionNames hmem with rfl | hmem
  · exact hsound
  · exact h.sessions other hmem

theorem Sound.eraseSession (h : engine.Sound)
    (hexchange : engine.host.Exchange (a ++ engine.sessionUnder name) host' b) :
    Moves engine a { engine with host := host', sessions := engine.sessions.erase name } b := by
  rw [← List.append_nil b] at hexchange
  refine ⟨⟨Named.distinct_erase h.sessionNames name, h.outputNames, ?_, h.outputs⟩,
    exchange_under hexchange (grants_eraseSession h name) (.refl _)⟩
  exact fun other hmem => h.sessions other (Named.mem_values_erase hmem)

theorem Sound.putOutput (h : engine.Sound) (hsound : output.Sound)
    (hexchange : engine.host.Exchange (a ++ engine.outputUnder out) host' (b ++ output.grants)) :
    Moves engine a
      { engine with host := host', outputs := engine.outputs.insert out output } b := by
  refine ⟨⟨h.sessionNames, Named.distinct_insert h.outputNames out output, h.sessions, ?_⟩,
    exchange_under hexchange (grants_eraseOutput h out) (grants_insertOutput h out output)⟩
  intro other hmem
  rcases Named.mem_values_insert h.outputNames hmem with rfl | hmem
  · exact hsound
  · exact h.outputs other hmem

theorem Sound.eraseOutput (h : engine.Sound)
    (hexchange : engine.host.Exchange (a ++ engine.outputUnder out) host' b) :
    Moves engine a { engine with host := host', outputs := engine.outputs.erase out } b := by
  rw [← List.append_nil b] at hexchange
  refine ⟨⟨h.sessionNames, Named.distinct_erase h.outputNames out, h.sessions, ?_⟩,
    exchange_under hexchange (grants_eraseOutput h out) (.refl _)⟩
  exact fun other hmem => h.outputs other (Named.mem_values_erase hmem)

end Engine

end Disassembly
