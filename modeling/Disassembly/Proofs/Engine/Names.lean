import Disassembly.Named
/-!
# Things under names

Where no name is given twice, putting a thing under a name or erasing one concerns that thing
alone: up to their order, the values are the thing under the name and all others.
-/
namespace Disassembly.Named

variable {α : Type} {things : Named α} {name other : String} {thing old : α}

def names (things : Named α) : List String := things.entries.map Prod.fst

def Distinct (things : Named α) : Prop := things.names.Nodup

theorem distinct_empty : (empty : Named α).Distinct := List.nodup_nil

theorem names_erase (things : Named α) (name : String) :
    (things.erase name).names = things.names.filter (· != name) := by
  rw [names, names, erase, List.filter_map]
  rfl

theorem distinct_erase (h : things.Distinct) (name : String) : (things.erase name).Distinct := by
  rw [Distinct, names_erase]
  exact h.filter _

theorem mem_names_erase :
    other ∈ (things.erase name).names ↔ other ∈ things.names ∧ other ≠ name := by
  rw [names_erase, List.mem_filter, bne_iff_ne]

theorem find?_eq_none_iff : things.find? name = none ↔ name ∉ things.names := by
  rw [find?, List.lookup_eq_none_iff, names, List.mem_map]
  constructor
  · rintro h ⟨entry, hmem, rfl⟩
    simpa using h entry hmem
  · intro h entry hmem
    rw [bne_iff_ne]
    exact fun heq => h ⟨entry, hmem, heq.symm⟩

theorem erase_of_find?_eq_none (h : things.find? name = none) : things.erase name = things := by
  rw [find?, List.lookup_eq_none_iff] at h
  rw [erase, List.filter_eq_self.2 fun entry hmem => ?_]
  rw [bne_iff_ne]
  exact (bne_iff_ne.1 (h entry hmem)).symm

theorem lookup_filter_ne (entries : List (String × α)) (h : other ≠ name) :
    (entries.filter fun entry => entry.1 != name).lookup other = entries.lookup other := by
  induction entries with
  | nil => rfl
  | cons entry entries ih =>
    by_cases hkey : entry.1 = name
    · have hother : (other == entry.1) = false := by simpa [hkey] using h
      rw [List.filter_cons_of_neg (by simpa using hkey), ih, List.lookup_cons, hother]
    · rw [List.filter_cons_of_pos (by simpa using hkey), List.lookup_cons, List.lookup_cons, ih]

theorem lookup_replace (entries : List (String × α)) (name other : String) (thing : α) :
    (entries.map fun entry => if entry.1 = name then (name, thing) else entry).lookup other =
      if other = name then (entries.lookup name).map fun _ => thing else entries.lookup other := by
  induction entries with
  | nil => simp
  | cons entry entries ih =>
    rw [List.map_cons]
    by_cases hkey : entry.1 = name
    · rw [if_pos hkey, List.lookup_cons, List.lookup_cons, List.lookup_cons, ih, hkey,
        beq_self_eq_true]
      by_cases hother : other = name
      · simp [hother]
      · have hne : (other == name) = false := by simpa using hother
        rw [hne, if_neg hother, if_neg hother]
    · have hname : (name == entry.1) = false := by simpa using Ne.symm hkey
      rw [if_neg hkey, List.lookup_cons, List.lookup_cons, List.lookup_cons, ih, hname]
      by_cases hother : other = name
      · simp [hother, hname]
      · simp [hother]

theorem find?_insert (things : Named α) (name other : String) (thing : α) :
    (things.insert name thing).find? other =
      if other = name then some thing else things.find? other := by
  unfold insert
  by_cases hfound : (things.find? name).isSome
  · obtain ⟨old, hold⟩ := Option.isSome_iff_exists.1 hfound
    rw [if_pos hfound, find?, lookup_replace, ← find?, hold]
    rfl
  · have hnone : things.find? name = none := Option.not_isSome_iff_eq_none.1 hfound
    rw [if_neg hfound, find?, List.lookup_append, ← find?, List.lookup_cons]
    by_cases hother : other = name
    · simp [hother, hnone]
    · have hne : (other == name) = false := by simpa using hother
      simp [hother, hne]

theorem find?_erase (things : Named α) (name other : String) :
    (things.erase name).find? other = if other = name then none else things.find? other := by
  by_cases hother : other = name
  · rw [if_pos hother, hother, find?_eq_none_iff]
    exact fun hmem => (mem_names_erase.1 hmem).2 rfl
  · rw [if_neg hother]
    exact lookup_filter_ne things.entries hother

def Each (condition : α → Prop) (things : Named α) : Prop :=
  ∀ name thing, things.find? name = some thing → condition thing

theorem each_empty (condition : α → Prop) : (empty : Named α).Each condition := by
  intro name thing h
  cases h

theorem Each.insert {condition : α → Prop} (h : things.Each condition) (hthing : condition thing) :
    (things.insert name thing).Each condition := by
  intro other found hfind
  rw [find?_insert] at hfind
  split at hfind
  · rwa [← Option.some.inj hfind]
  · exact h other found hfind

theorem Each.erase {condition : α → Prop} (h : things.Each condition) :
    (things.erase name).Each condition := by
  intro other found hfind
  rw [find?_erase] at hfind
  split at hfind
  · cases hfind
  · exact h other found hfind

theorem entries_of_find? (hd : things.Distinct) (h : things.find? name = some old) :
    ∃ before after, things.entries = before ++ (name, old) :: after ∧
      (things.erase name).entries = before ++ after ∧
      ∀ thing, (things.insert name thing).entries = before ++ (name, thing) :: after := by
  obtain ⟨before, after, hentries, hbefore⟩ := List.lookup_eq_some_iff.1 h
  have hne : ∀ entry ∈ before ++ after, entry.1 ≠ name := by
    intro entry hmem heq
    rcases List.mem_append.1 hmem with hmem | hmem
    · exact bne_iff_ne.1 (hbefore entry hmem) heq.symm
    · rw [Distinct, names, hentries, List.map_append, List.map_cons] at hd
      apply (List.nodup_cons.1 (List.nodup_append.1 hd).2.1).1
      exact List.mem_map.2 ⟨entry, hmem, heq⟩
  refine ⟨before, after, hentries, ?_, fun thing => ?_⟩
  · have hkeep : (before ++ after).filter (fun entry => entry.1 != name) = before ++ after :=
      List.filter_eq_self.2 fun entry hmem => bne_iff_ne.2 (hne entry hmem)
    simpa [erase, hentries] using hkeep
  · have hkeep : (before ++ after).map
        (fun entry => if entry.1 = name then (name, thing) else entry) = before ++ after :=
      (List.map_congr_left fun entry hmem => if_neg (hne entry hmem)).trans (List.map_id _)
    rw [List.map_append] at hkeep
    obtain ⟨hkeep1, hkeep2⟩ := List.append_inj hkeep (List.length_map _)
    simp only [insert, h, Option.isSome_some, if_true, hentries, List.map_append, List.map_cons,
      hkeep1, hkeep2]

theorem values_perm (hd : things.Distinct) (h : things.find? name = some old) :
    things.values.Perm (old :: (things.erase name).values) := by
  obtain ⟨before, after, hentries, herase, -⟩ := entries_of_find? hd h
  rw [values, values, hentries, herase, List.map_append, List.map_append, List.map_cons]
  exact List.perm_middle

theorem values_insert (hd : things.Distinct) (name : String) (thing : α) :
    (things.insert name thing).values.Perm (thing :: (things.erase name).values) := by
  cases hfind : things.find? name with
  | none =>
    rw [erase_of_find?_eq_none hfind, insert, hfind, if_neg (by simp), values, List.map_append]
    exact List.perm_append_comm
  | some old =>
    obtain ⟨before, after, -, herase, hinsert⟩ := entries_of_find? hd hfind
    rw [values, values, hinsert, herase, List.map_append, List.map_append, List.map_cons]
    exact List.perm_middle

theorem distinct_insert (hd : things.Distinct) (name : String) (thing : α) :
    (things.insert name thing).Distinct := by
  cases hfind : things.find? name with
  | none =>
    rw [Distinct, names, insert, hfind, if_neg (by simp), List.map_append]
    refine List.nodup_append.2 ⟨hd, by simp, ?_⟩
    intro other hmem last hlast heq
    rw [List.map_singleton, List.mem_singleton] at hlast
    rw [heq, hlast] at hmem
    exact find?_eq_none_iff.1 hfind hmem
  | some old =>
    obtain ⟨before, after, hentries, -, hinsert⟩ := entries_of_find? hd hfind
    rw [Distinct, names, hentries, List.map_append, List.map_cons] at hd
    rwa [Distinct, names, hinsert, List.map_append, List.map_cons]

theorem mem_values_insert (hd : things.Distinct) {value : α}
    (h : value ∈ (things.insert name thing).values) : value = thing ∨ value ∈ things.values := by
  have hmem := (values_insert hd name thing).mem_iff.1 h
  rcases List.mem_cons.1 hmem with rfl | hmem
  · exact .inl rfl
  · exact .inr (((List.filter_sublist).map Prod.snd).subset hmem)

theorem mem_values_erase {value : α} (h : value ∈ (things.erase name).values) :
    value ∈ things.values := ((List.filter_sublist).map Prod.snd).subset h

theorem mem_values_of_find? (h : things.find? name = some thing) : thing ∈ things.values := by
  obtain ⟨before, after, hentries, -⟩ := List.lookup_eq_some_iff.1 h
  simp [values, hentries]

theorem values_eq_nil (h : ∀ name, name ∉ things.names) : things.values = [] := by
  have hnames : things.names = [] := List.eq_nil_iff_forall_not_mem.2 h
  rw [values, List.map_eq_nil_iff.1 hnames, List.map_nil]

end Disassembly.Named
