import Mathlib.Data.List.Nodup
import Columnar.Proofs.Batches
import Columnar.Proofs.Filling
import Columnar.Proofs.Placing
import Columnar.Registry
/-!
# The first to claim a name has it

The registry keeps components and archetypes apart, yet an archetype registers the
components of its fields on the way.  Whatever is asked in whatever order, a name has the
entry of the first component to claim it, and no later call changes that.

A component that has lost its name is encoded under the entry of another.  Its chunks
are of that entry's datatype all the same, or there are none.
-/

namespace Columnar

section Named

variable {α : Type} {key : α → String} {entries : List α} {name : String}

/-- No entry is found under a name that none has. -/
theorem find?_key_eq_none_iff :
    (entries.find? fun e => key e == name) = none ↔ name ∉ entries.map key := by
  rw [List.find?_eq_none, List.mem_map, not_exists]
  refine forall_congr' fun e => ?_
  rw [not_and, beq_iff_eq]

/-- The first entry with a key that is found has that key. -/
theorem key_of_find? {e : α} (h : (entries.find? fun e => key e == name) = some e) :
    key e = name :=
  eq_of_beq (List.find?_some (p := fun e => key e == name) h)

/-- An entry with a free name can be added. -/
theorem nodup_push (h : (entries.map key).Nodup) (e : α)
    (hfree : (entries.find? fun other => key other == key e) = none) :
    ((entries ++ [e]).map key).Nodup := by
  rw [List.map_append]
  refine h.append (List.nodup_singleton _) ?_
  intro name hmem hsame
  obtain rfl := List.mem_singleton.1 hsame
  exact find?_key_eq_none_iff.1 hfree hmem

/-- Where no name is used twice, every entry is found under its name. -/
theorem find?_of_nodup (h : (entries.map key).Nodup) {e : α} (hmem : e ∈ entries) :
    (entries.find? fun other => key other == key e) = some e := by
  have hsome : (entries.find? fun other => key other == key e).isSome :=
    List.find?_isSome.2 ⟨e, hmem, beq_self_eq_true _⟩
  obtain ⟨found, hfound⟩ := Option.isSome_iff_exists.1 hsome
  rw [hfound, List.inj_on_of_nodup_map h (List.mem_of_find?_eq_some hfound) hmem
    (key_of_find? hfound)]

end Named

namespace RegistryCall

/-- Archetypes that are asked for in calls and then in more. -/
theorem archetypes_append (calls more : List RegistryCall) :
    archetypes (calls ++ more) = archetypes calls ++ archetypes more :=
  List.filterMap_append

/-- Later calls claim names where those of the earlier archetypes are taken. -/
theorem claimantsFrom_append (taken : List String) (calls more : List RegistryCall) :
    claimantsFrom taken (calls ++ more) = claimantsFrom taken calls ++
      claimantsFrom (taken ++ (archetypes calls).map (·.name)) more := by
  induction calls generalizing taken with
  | nil =>
    show _ = [] ++ claimantsFrom (taken ++ []) more
    rw [List.append_nil]
    rfl
  | cons call calls ih =>
    have hnames : (archetypes (call :: calls)).map (·.name) =
        (archetypes [call]).map (·.name) ++ (archetypes calls).map (·.name) := by
      rw [← List.map_append, ← archetypes_append]
      rfl
    rw [hnames, List.cons_append, claimantsFrom, ih, claimantsFrom, List.append_assoc,
      List.append_assoc]

/-- The names that calls and one more call claim are those that the calls claim and then those of
that one. -/
theorem claimants_append_singleton (calls : List RegistryCall) (call : RegistryCall) :
    claimants (calls ++ [call]) =
      claimants calls ++ call.claims ((archetypes calls).map (·.name)) := by
  rw [claimants, claimantsFrom_append, claimantsFrom, claimantsFrom, List.append_nil,
    List.nil_append, claimants]

/-- The first entry to claim a name has it, whatever is called later. -/
theorem entryOf_append {calls : List RegistryCall} {name : String} {e : ComponentEntry}
    (h : entryOf calls name = some e) (more : List RegistryCall) :
    entryOf (calls ++ more) name = some e := by
  obtain ⟨c, hfirst, rfl⟩ := Option.map_eq_some_iff.1 h
  rw [entryOf, claimants, claimantsFrom_append, List.find?_append, ← claimants, hfirst]
  rfl

/-- The components of the first archetype of a name have claimed their names. -/
theorem claimed_of_first {calls : List RegistryCall} {name : String} {a : Archetype}
    (h : (archetypes calls).find? (fun a => a.name == name) = some a) :
    ∀ field ∈ a.fields, field.component ∈ claimants calls := by
  induction calls using List.reverseRecOn with
  | nil => exact nomatch h
  | append_singleton calls call ih =>
    intro field hfield
    rw [claimants_append_singleton]
    rw [archetypes_append, List.find?_append] at h
    cases hearlier : (archetypes calls).find? (fun a => a.name == name) with
    | some earlier =>
      rw [hearlier] at h
      exact List.mem_append_left _ (ih (hearlier.trans h) field hfield)
    | none =>
      rw [hearlier, Option.none_or] at h
      cases call with
      | describeArchetype b =>
        obtain rfl : b = a := List.mem_singleton.1 (List.mem_of_find?_eq_some h) |>.symm
        obtain rfl : b.name = name := key_of_find? h
        rw [claims, if_neg (find?_key_eq_none_iff.1 hearlier)]
        exact List.mem_append_right _ (List.mem_map_of_mem hfield)
      | describe c => exact nomatch h
      | lookup other => exact nomatch h
      | lookupArchetype other => exact nomatch h

/-- The name of a component that claims it has an entry. -/
theorem exists_entryOf {calls : List RegistryCall} {c : Component} (h : c ∈ claimants calls) :
    ∃ e, entryOf calls c.name = some e := by
  have hfound : ((claimants calls).find? fun other => other.name == c.name).isSome :=
    List.find?_isSome.2 ⟨c, h, beq_self_eq_true c.name⟩
  obtain ⟨first, hfirst⟩ := Option.isSome_iff_exists.1 hfound
  exact ⟨first.entry, by rw [entryOf, hfirst]; rfl⟩

/-- Calls that come later do not change the table of the first archetype of a name. -/
theorem tableFor_append {calls : List RegistryCall} {name : String} {a : Archetype}
    (h : (archetypes calls).find? (fun a => a.name == name) = some a)
    (more : List RegistryCall) : tableFor (calls ++ more) a = tableFor calls a := by
  have hfields : ∀ field ∈ a.fields,
      (entryOf (calls ++ more) field.component.name).getD field.component.entry =
        (entryOf calls field.component.name).getD field.component.entry := by
    intro field hfield
    obtain ⟨e, hentry⟩ := exists_entryOf (claimed_of_first h field hfield)
    rw [hentry, entryOf_append hentry more]
  rw [tableFor, tableFor]
  congr 1
  exact List.map_congr_left fun field hfield => congrArg _ (hfields field hfield)

/-- More calls leave the tables there are and add those of their own archetypes. -/
theorem tableOf_append (calls more : List RegistryCall) (name : String) :
    tableOf (calls ++ more) name = (tableOf calls name).or
      (((archetypes more).find? fun a => a.name == name).map (tableFor (calls ++ more))) := by
  rw [tableOf, archetypes_append, List.find?_append, tableOf]
  cases hfirst : (archetypes calls).find? (fun a => a.name == name) with
  | none => rfl
  | some a => exact congrArg some (tableFor_append hfirst more)

/-- A table stays what it is, whatever is asked later. -/
theorem tableOf_append_of_eq_some {calls : List RegistryCall} {name : String} {e : ArchetypeEntry}
    (h : tableOf calls name = some e) (more : List RegistryCall) :
    tableOf (calls ++ more) name = some e := by
  rw [tableOf_append, h]
  rfl

/-- A reply with an entry stays the same, whatever is asked later. -/
theorem replyFrom_append {calls : List RegistryCall} {call : RegistryCall}
    (h : (call.replyFrom (entryOf calls) (tableOf calls)).hasEntry = true)
    (more : List RegistryCall) :
    call.replyFrom (entryOf calls) (tableOf calls) =
      call.replyFrom (entryOf (calls ++ more)) (tableOf (calls ++ more)) := by
  have hcomponent : ∀ name, (RegistryReply.component (entryOf calls name)).hasEntry = true →
      RegistryReply.component (entryOf calls name) = .component (entryOf (calls ++ more) name) := by
    intro name hsome
    obtain ⟨e, hentry⟩ := Option.isSome_iff_exists.1 hsome
    rw [hentry, entryOf_append hentry more]
  have harchetype : ∀ name, (RegistryReply.archetype (tableOf calls name)).hasEntry = true →
      RegistryReply.archetype (tableOf calls name) = .archetype (tableOf (calls ++ more) name) := by
    intro name hsome
    obtain ⟨e, htable⟩ := Option.isSome_iff_exists.1 hsome
    rw [htable, tableOf_append_of_eq_some htable more]
  cases call with
  | describe c => exact hcomponent c.name h
  | describeArchetype a => exact harchetype a.name h
  | lookup name => exact hcomponent name h
  | lookupArchetype name => exact harchetype name h

/-- The first archetype of a name was asked for. -/
theorem mem_of_first {calls : List RegistryCall} {name : String} {a : Archetype}
    (h : (archetypes calls).find? (fun a => a.name == name) = some a) :
    .describeArchetype a ∈ calls := by
  obtain ⟨call, hcall, hasked⟩ := List.mem_filterMap.1 (List.mem_of_find?_eq_some h)
  cases call with
  | describeArchetype b =>
    obtain rfl := Option.some.inj hasked
    exact hcall
  | describe c => exact nomatch hasked
  | lookup other => exact nomatch hasked
  | lookupArchetype other => exact nomatch hasked

end RegistryCall

namespace Registry

open RegistryCall (claims entryOf tableFor tableOf)

/-- Registers components one after the other, each if its name is free. -/
def register (r : Registry) (cs : List Component) : Registry :=
  cs.foldl (fun r c => (r.describe c).2) r

/-- The table of an archetype, whose fields have the entries that are stored. -/
def table (r : Registry) (a : Archetype) : ArchetypeEntry where
  name := a.name
  indicator := a.indicator
  fields := a.fields.map fun field => (field.name, r.entryFor field.component)

/-- The table of an archetype depends on the registry through its components alone. -/
theorem table_congr {r₁ r₂ : Registry} (h : r₁.components = r₂.components) (a : Archetype) :
    r₁.table a = r₂.table a := by
  have hentry : ∀ c, r₁.entryFor c = r₂.entryFor c := by
    intro c
    rw [entryFor_eq_getD, entryFor_eq_getD, lookup, lookup, h]
  rw [table, table]
  congr 1
  exact List.map_congr_left fun field _ => congrArg _ (hentry field.component)

/-- A component takes a free name and leaves all others alone. -/
theorem lookup_describe_or (r : Registry) (c : Component) (name : String) :
    (r.describe c).2.lookup name =
      (r.lookup name).or (([c].find? fun c => c.name == name).map Component.entry) := by
  unfold describe
  cases htaken : r.lookup c.name with
  | some e =>
    cases hname : c.name == name with
    | false => simp [hname]
    | true =>
      obtain rfl := eq_of_beq hname
      rw [htaken]
      rfl
  | none =>
    unfold lookup
    rw [List.find?_append]
    cases hname : c.name == name <;> simp [Component.entry, hname]

/-- Components take the names that are free, the first of a name before the others. -/
theorem lookup_register (r : Registry) (cs : List Component) (name : String) :
    (r.register cs).lookup name =
      (r.lookup name).or ((cs.find? fun c => c.name == name).map Component.entry) := by
  induction cs generalizing r with
  | nil => exact Option.or_none.symm
  | cons c cs ih =>
    have hrest : (r.register (c :: cs)).lookup name = ((r.describe c).2.register cs).lookup name :=
      rfl
    rw [hrest, ih, lookup_describe_or, Option.or_assoc, ← Option.map_or, ← List.find?_append]
    rfl

/-- Registering a component leaves the archetypes as they are. -/
theorem archetypes_register (r : Registry) (cs : List Component) :
    (r.register cs).archetypes = r.archetypes := by
  induction cs generalizing r with
  | nil => rfl
  | cons c cs ih =>
    have hone : (r.describe c).2.archetypes = r.archetypes := by
      unfold describe
      cases r.lookup c.name <;> rfl
    exact (ih _).trans hone

/-- Asking for the entries of fields registers their components, one after the other. -/
theorem describeFields_snd (fields : List ArchetypeField) (r : Registry) :
    (r.describeFields fields).2 = r.register (fields.map (·.component)) := by
  induction fields generalizing r with
  | nil => rfl
  | cons field rest ih => exact ih _

/-- Asking for an archetype whose name is taken leaves the registry as it is, also its components.
-/
theorem describeArchetype_of_taken {r : Registry} {a : Archetype} {e : ArchetypeEntry}
    (h : r.lookupArchetype a.name = some e) : r.describeArchetype a = (e, r) := by
  rw [describeArchetype, h]

/-- An archetype whose name is free registers its components, and then itself. -/
theorem describeArchetype_of_free {r : Registry} {a : Archetype}
    (h : r.lookupArchetype a.name = none) :
    (r.describeArchetype a).2.components = (r.register (a.fields.map (·.component))).components ∧
      (r.describeArchetype a).2.archetypes =
        r.archetypes ++ [(r.describeArchetype a).2.table a] ∧
      (r.describeArchetype a).1 = (r.describeArchetype a).2.table a := by
  have hcomponents : (r.describeArchetype a).2.components =
      (r.register (a.fields.map (·.component))).components := by
    rw [describeArchetype, h, ← describeFields_snd]
  have hfields := describeFields_fst a.fields r
  rw [describeFields_snd] at hfields
  rw [table_congr hcomponents a]
  refine ⟨hcomponents, ?_, ?_⟩
  · rw [describeArchetype, h]
    dsimp only
    rw [hfields, describeFields_snd, archetypes_register]
    rfl
  · rw [describeArchetype, h]
    dsimp only
    rw [hfields]
    rfl

/-- A call registers the components that claim their names. -/
theorem components_run {r : Registry} {taken : List String}
    (htaken : ∀ name, r.lookupArchetype name = none ↔ name ∉ taken) (call : RegistryCall) :
    (call.run r).2.components = (r.register (call.claims taken)).components := by
  cases call with
  | describe c => rfl
  | describeArchetype a =>
    show (r.describeArchetype a).2.components = _
    cases hfound : r.lookupArchetype a.name with
    | none =>
      rw [(describeArchetype_of_free hfound).1, claims, if_neg ((htaken a.name).1 hfound)]
    | some e =>
      have hmem : a.name ∈ taken := by
        by_contra hnot
        rw [(htaken a.name).2 hnot] at hfound
        cases hfound
      rw [describeArchetype_of_taken hfound, claims, if_pos hmem]
      rfl
  | lookup name => rfl
  | lookupArchetype name => rfl

/-- A call stores no archetype, or the one that it asks for under its free name. -/
theorem archetypes_run (r : Registry) (call : RegistryCall) :
    (call.run r).2.archetypes = r.archetypes ∧
        (∀ a, call = .describeArchetype a → ∃ e, r.lookupArchetype a.name = some e) ∨
      ∃ a, call = .describeArchetype a ∧ r.lookupArchetype a.name = none ∧
        (call.run r).2.archetypes = r.archetypes ++ [(call.run r).2.table a] := by
  cases call with
  | describe c => exact .inl ⟨archetypes_register r [c], nofun⟩
  | describeArchetype a =>
    cases hfound : r.lookupArchetype a.name with
    | none => exact .inr ⟨a, rfl, hfound, (describeArchetype_of_free hfound).2.1⟩
    | some e =>
      refine .inl ⟨?_, ?_⟩
      · exact congrArg (fun x => x.2.archetypes) (describeArchetype_of_taken hfound)
      · rintro _ ⟨⟩
        exact ⟨e, hfound⟩
  | lookup name => exact .inl ⟨rfl, nofun⟩
  | lookupArchetype name => exact .inl ⟨rfl, nofun⟩

/-- The names of components have the entries there were, or those of the components that
claim them. -/
theorem lookup_run {r : Registry} {taken : List String}
    (htaken : ∀ name, r.lookupArchetype name = none ↔ name ∉ taken) (call : RegistryCall)
    (name : String) :
    (call.run r).2.lookup name = (r.lookup name).or
      (((call.claims taken).find? fun c => c.name == name).map Component.entry) := by
  rw [lookup, components_run htaken, ← lookup_register]
  rfl

/-- The names of archetypes have the tables there were, or that of the archetype that is
asked for. -/
theorem lookupArchetype_run (r : Registry) (call : RegistryCall) (name : String) :
    (call.run r).2.lookupArchetype name = (r.lookupArchetype name).or
      (((RegistryCall.archetypes [call]).find? fun a => a.name == name).map
        (call.run r).2.table) := by
  obtain ⟨hsame, htaken⟩ | ⟨a, rfl, -, hstored⟩ := archetypes_run r call
  · rw [lookupArchetype, hsame, ← lookupArchetype]
    cases hasked : (RegistryCall.archetypes [call]).find? fun a => a.name == name with
    | none => exact Option.or_none.symm
    | some a =>
      obtain rfl : a.name = name := key_of_find? hasked
      have hcall := List.mem_singleton.1 (RegistryCall.mem_of_first hasked)
      obtain ⟨e, hfound⟩ := htaken a hcall.symm
      rw [hfound]
      rfl
  · have hname : (((RegistryCall.describeArchetype a).run r).2.table a).name = a.name := rfl
    rw [lookupArchetype, hstored, List.find?_append, List.find?_singleton, hname]
    show _ = (r.lookupArchetype name).or (([a].find? fun a => a.name == name).map _)
    rw [List.find?_singleton]
    cases a.name == name <;> rfl

/-- The reply to a call is what is found under the name when the call was made. -/
theorem reply_run (r : Registry) (call : RegistryCall) :
    (call.run r).1 =
      call.replyFrom (call.run r).2.lookup (call.run r).2.lookupArchetype := by
  cases call with
  | describe c => exact congrArg RegistryReply.component (lookup_describe_self r c).symm
  | describeArchetype a =>
    show RegistryReply.archetype (some (r.describeArchetype a).1) =
      .archetype ((r.describeArchetype a).2.lookupArchetype a.name)
    have hstored := lookupArchetype_run r (.describeArchetype a) a.name
    cases hfound : r.lookupArchetype a.name with
    | none =>
      have hself : ([a].find? fun other => other.name == a.name) = some a := by
        rw [List.find?_singleton, if_pos (beq_self_eq_true a.name)]
      rw [(describeArchetype_of_free hfound).2.2]
      rw [hfound, Option.none_or] at hstored
      exact congrArg RegistryReply.archetype (hstored.trans (congrArg _ hself)).symm
    | some e => rw [describeArchetype_of_taken hfound, hfound]
  | lookup name => rfl
  | lookupArchetype name => rfl

/-- A registry has just the entries and tables that can be told from the calls that led to it. -/
structure Follows (r : Registry) (calls : List RegistryCall) : Prop where
  lookup_eq (name : String) : r.lookup name = entryOf calls name
  lookupArchetype_eq (name : String) : r.lookupArchetype name = tableOf calls name

/-- Tables are as calls tell if the entries of components are. -/
theorem table_eq_tableFor {r : Registry} {calls : List RegistryCall}
    (h : ∀ name, r.lookup name = entryOf calls name) : r.table = tableFor calls := by
  funext a
  rw [table, tableFor]
  congr 1
  refine List.map_congr_left fun field _ => congrArg _ ?_
  rw [entryFor_eq_getD, h]

namespace Follows

variable {r : Registry} {calls : List RegistryCall}

/-- The names of archetypes that are taken are those of the archetypes that were asked
for. -/
theorem free_iff (h : r.Follows calls) (name : String) :
    r.lookupArchetype name = none ↔ name ∉ (RegistryCall.archetypes calls).map (·.name) := by
  rw [h.lookupArchetype_eq, tableOf, Option.map_eq_none_iff, find?_key_eq_none_iff]

/-- One call more leaves what the calls with it tell. -/
theorem run (h : r.Follows calls) (call : RegistryCall) :
    (call.run r).2.Follows (calls ++ [call]) := by
  have hcomponents : ∀ name, (call.run r).2.lookup name = entryOf (calls ++ [call]) name := by
    intro name
    rw [lookup_run h.free_iff, h.lookup_eq, entryOf, entryOf,
      RegistryCall.claimants_append_singleton, List.find?_append, Option.map_or]
  refine ⟨hcomponents, fun name => ?_⟩
  rw [lookupArchetype_run, h.lookupArchetype_eq, table_eq_tableFor hcomponents,
    RegistryCall.tableOf_append]

/-- A call is replied to with what the calls tell that end with it. -/
theorem reply_eq (h : r.Follows calls) (call : RegistryCall) :
    (call.run r).1 =
      call.replyFrom (entryOf (calls ++ [call])) (tableOf (calls ++ [call])) := by
  have hlast := h.run call
  rw [reply_run, funext hlast.lookup_eq, funext hlast.lookupArchetype_eq]

/-- The fields of a table have the entries that are found for their components. -/
theorem forall₂_fields (h : r.Follows calls) {name : String} {a : Archetype}
    (hfirst : (RegistryCall.archetypes calls).find? (fun a => a.name == name) = some a) :
    List.Forall₂ (fun field entry => entry.1 = field.name ∧
      r.lookup field.component.name = some entry.2) a.fields (tableFor calls a).fields := by
  rw [tableFor, List.forall₂_map_right_iff, List.forall₂_same]
  intro field hfield
  have hclaimed := RegistryCall.claimed_of_first hfirst field hfield
  obtain ⟨e, hentry⟩ := RegistryCall.exists_entryOf hclaimed
  rw [h.lookup_eq, hentry]
  exact ⟨rfl, rfl⟩

end Follows

/-- One call more is run on what the others leave. -/
theorem after_append_singleton (calls : List RegistryCall) (call : RegistryCall) :
    after (calls ++ [call]) = (call.run (after calls)).2 := by
  rw [after, List.foldl_append]
  rfl

/-- After any calls the registry has just the entries and tables that can be told from them. -/
theorem follows_after (calls : List RegistryCall) : (after calls).Follows calls := by
  induction calls using List.reverseRecOn with
  | nil => exact ⟨fun _ => rfl, fun _ => rfl⟩
  | append_singleton calls call ih =>
    rw [after_append_singleton]
    exact ih.run call

/-- What is found under the name of an archetype carries it. -/
theorem name_of_lookupArchetype {r : Registry} {name : String} {e : ArchetypeEntry}
    (h : r.lookupArchetype name = some e) : e.name = name :=
  key_of_find? h

/-- No two stored entries have the same name, neither among components nor among archetypes. -/
structure Distinct (r : Registry) : Prop where
  components : (r.components.map (·.name)).Nodup
  archetypes : (r.archetypes.map (·.name)).Nodup

/-- Components that are registered have names of their own. -/
theorem nodup_register {r : Registry} (h : (r.components.map (·.name)).Nodup)
    (cs : List Component) : ((r.register cs).components.map (·.name)).Nodup := by
  induction cs generalizing r with
  | nil => exact h
  | cons c cs ih =>
    have hone : ((r.describe c).2.components.map (·.name)).Nodup := by
      unfold describe
      cases hfound : r.lookup c.name with
      | some e => exact h
      | none => exact nodup_push h c.entry hfound
    exact ih hone

/-- A call keeps the stored names distinct, since it only stores what is not found. -/
theorem Distinct.run {r : Registry} (h : r.Distinct) (call : RegistryCall) :
    (call.run r).2.Distinct := by
  constructor
  · have htaken : ∀ name, r.lookupArchetype name = none ↔ name ∉ r.archetypes.map (·.name) :=
      fun _ => find?_key_eq_none_iff
    rw [components_run htaken]
    exact nodup_register h.components _
  · obtain ⟨hsame, -⟩ | ⟨a, -, hfree, hstored⟩ := archetypes_run r call
    · rw [hsame]
      exact h.archetypes
    · rw [hstored]
      exact nodup_push h.archetypes _ hfree

/-- After any calls the stored names are distinct, among components and among archetypes. -/
theorem distinct_after (calls : List RegistryCall) : (after calls).Distinct := by
  induction calls using List.reverseRecOn with
  | nil => exact ⟨List.nodup_nil, List.nodup_nil⟩
  | append_singleton calls call ih =>
    rw [after_append_singleton]
    exact ih.run call

end Registry

namespace Component

variable {r : Registry} {c : Component}

/-- The slots of operations that add just the records are those of the records. -/
theorem places_eq {type : ValueType} {ops : List ColumnOp} {records : List type.Datum}
    (h : ops.filter ColumnOp.adds = records.map (.append type)) (layout : Layout) :
    ops.filterMap (ColumnOp.place layout) =
      records.filterMap fun record => type.place record layout := by
  have hadding : ops.filterMap (ColumnOp.place layout) =
      (ops.filter ColumnOp.adds).filterMap (ColumnOp.place layout) := by
    rw [List.filterMap_filter]
    refine List.filterMap_congr fun op _ => ?_
    cases op <;> rfl
  rw [hadding, h, List.filterMap_map]
  rfl

/-- The slots that records take up in columns of the entry of their component. -/
def placed (r : Registry) (c : Component) (records : List c.Datum) :
    List (Option (r.entryFor c).layout.Cell) :=
  records.filterMap fun record => c.type.place record (r.entryFor c).layout

/-- Encoding that is not refused has a place for each record.  It makes the chunk of
their slots, if the layout of the entry admits them all; else it breaks off. -/
theorem encode_eq_placed {records : List c.Datum} (hint : Nat) (m : Ledger) :
    (∃ fault, (c.encode r records hint m).1 = .error (.fault fault)) ∨
      (c.placed r records).length = records.length ∧
        ((r.entryFor c).layout.AdmitsAll (c.placed r records) →
          (c.encode r records hint m).1 = .ok ((r.entryFor c).layout.chunk (c.placed r records))) ∧
        (¬ (r.entryFor c).layout.AdmitsAll (c.placed r records) →
          ∃ flaw, (c.encode r records hint m).1 = .error (.flaw flaw) ∧
            flaw.isUnmaskedNull = true) := by
  refine encode_eq_finish.imp_right ?_
  rintro ⟨start, m', ops, last, n, hnew, hruns, hadds, hencode⟩
  obtain ⟨hplaces, hkeeps⟩ := hruns.keeps hnew
  have hlength : (c.placed r records).length = records.length := by
    refine List.filterMap_length_eq_length.2 fun record hrecord => ?_
    have hmem : ColumnOp.append c.type record ∈ ops.filter ColumnOp.adds :=
      hadds ▸ List.mem_map_of_mem hrecord
    exact hplaces _ (List.mem_filter.1 hmem).1 rfl
  have hslots : Column.slotsOf (r.entryFor c).layout ops = c.placed r records :=
    places_eq hadds (r.entryFor c).layout
  rw [hslots] at hkeeps
  rw [hencode]
  exact ⟨hlength, hkeeps.finish_eq n⟩

end Component

/-- What encoding so many records under an entry may come to: a chunk of its datatype with
so many slots, or a refusal.  It is no refusal if a null may not be there, or, for records that
add more slots to a writer than there are sizes, if encoding breaks off. -/
def ComponentEntry.Yields (e : ComponentEntry) (slots extent : Nat) :
    Except Failure Chunk → Prop
  | .ok chunk => chunk.dataType = e.dataType ∧ chunk.length = slots
  | .error (.fault fault) => extent ≤ Size.max → fault.isBreak = false
  | .error (.flaw flaw) => flaw.isUnmaskedNull = true

/-- Encoding records of a component makes a chunk of the datatype that is registered under its
name, with a slot for each record, or it is refused.  It is the layout of the entry that counts
here, which need not be the one of the component. -/
theorem Component.encode_yields (r : Registry) (c : Component) {records : List c.Datum}
    (hint : Nat) (m : Ledger) :
    (r.entryFor c).Yields records.length (c.type.extentTotal records)
      (c.encode r records hint m).1 := by
  obtain ⟨fault, hfault⟩ | ⟨hlength, hmade, hbroken⟩ := c.encode_eq_placed (r := r) hint m
  · rw [hfault]
    exact fun hle => c.unbroken_encode hle hint m hfault
  · by_cases hadmits : (r.entryFor c).layout.AdmitsAll (c.placed r records)
    · rw [hmade hadmits]
      refine ⟨(r.entryFor c).layout.dataType_chunk _, ?_⟩
      rw [(r.entryFor c).layout.length_chunk, hlength]
    · obtain ⟨flaw, hflaw, hnull⟩ := hbroken hadmits
      rw [hflaw]
      exact hnull

namespace Registry

open RegistryCall (entryOf tableOf)

/-- What calls leave of the empty registry, and how it replies. -/
structure Consistent (calls : List RegistryCall) : Prop where
  /-- A name has the entry of the first component to claim it.  The name of an archetype
  has the table of the first to be asked for. -/
  first (name : String) : (after calls).lookup name = entryOf calls name ∧
    (after calls).lookupArchetype name = tableOf calls name
  /-- A call is replied to with the first of its name so far, which may be what it asks
  for itself. -/
  replied (before : List RegistryCall) (call : RegistryCall) (rest : List RegistryCall) :
    calls = before ++ call :: rest → (call.run (after before)).1 =
      call.replyFrom (entryOf (before ++ [call])) (tableOf (before ++ [call]))
  /-- An entry that is replied is the one that is found in the end. -/
  lasting (before : List RegistryCall) (call : RegistryCall) (rest : List RegistryCall) :
    calls = before ++ call :: rest → (call.run (after before)).1.hasEntry = true →
      (call.run (after before)).1 =
        call.replyFrom (after calls).lookup (after calls).lookupArchetype
  /-- More calls change no entry and take none away. -/
  kept (more : List RegistryCall) (name : String) :
    (∀ e, (after calls).lookup name = some e → (after (calls ++ more)).lookup name = some e) ∧
      ∀ e, (after calls).lookupArchetype name = some e →
        (after (calls ++ more)).lookupArchetype name = some e
  /-- An entry that is found under a name carries that name, and so does a table. -/
  named (name : String) : (∀ e, (after calls).lookup name = some e → e.name = name) ∧
    ∀ e, (after calls).lookupArchetype name = some e → e.name = name
  /-- Every entry and every table that is stored is found under its name. -/
  stored : (∀ e ∈ (after calls).components, (after calls).lookup e.name = some e) ∧
    ∀ e ∈ (after calls).archetypes, (after calls).lookupArchetype e.name = some e
  /-- A table is that of an archetype that was asked for, and each of its fields has just
  the entry that is found for its component. -/
  tables : ∀ e ∈ (after calls).archetypes, ∃ a, .describeArchetype a ∈ calls ∧
    e.name = a.name ∧ e.indicator = a.indicator ∧
      List.Forall₂ (fun field entry => entry.1 = field.name ∧
        (after calls).lookup field.component.name = some entry.2) a.fields e.fields
  /-- Records of any component are encoded under the entry that is found for it then, into
  one slot each, if they are encoded at all.  Else they are refused, as long as there are sizes
  for the slots that they add. -/
  encoded (c : Component) (records : List c.Datum) (hint : Nat) (m : Ledger) :
    ∃ e, (after (calls ++ [.describe c])).lookup c.name = some e ∧
      e.Yields records.length (c.type.extentTotal records)
        (c.encode (after calls) records hint m).1

/-- Levels, all of which are known. -/
private def levelComponent : Component := ⟨"samples.Level", .number .uint16⟩

/-- Levels, some of which are not known, under the same name. -/
private def gappyComponent : Component := ⟨"samples.Level", .option (.number .uint16)⟩

/-- Names of units. -/
private def unitComponent : Component := ⟨"samples.Unit", .text⟩

/-- Two archetypes of one name, with two components of one name. -/
private def clash : List RegistryCall :=
  [.lookup "samples.Level",
    .describeArchetype ⟨"samples.Gauge", "samples.GaugeIndicator", [⟨"level", levelComponent⟩]⟩,
    .describe gappyComponent,
    .describeArchetype ⟨"samples.Gauge", "samples.GaugeIndicator",
      [⟨"level", gappyComponent⟩, ⟨"unit", unitComponent⟩]⟩,
    .lookupArchetype "samples.Gauge"]

/-- Collections of records without fields. -/
private def holesComponent : Component := ⟨"samples.Holes", .collection (.record "Hole" .nil)⟩

/-- Half as many records without fields as there are sizes. -/
private def manyHoles : holesComponent.Datum := .populated (List.replicate 0x8000000000000000 ())

/-- An archetype that has the name of a component, and then the component. -/
private def namesakes : List RegistryCall :=
  [.describeArchetype ⟨"samples.Holes", "samples.HolesIndicator", []⟩, .describe holesComponent]

end Registry

end Columnar
