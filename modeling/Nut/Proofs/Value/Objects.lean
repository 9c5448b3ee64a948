import Nut.Proofs.Evaluation.Sound
import Nut.Value.Object

/-! Which objects values are: those with no error in them, with different keys of the right types,
and with blocks for bodies. -/

namespace Nut

namespace Object

inductive PartOf : Object → Object → Prop
  | whole (o) : PartOf o o
  | element {w o os} : o ∈ os → PartOf w o → PartOf w (.array os)
  | key {w k o es} : (k, o) ∈ es → PartOf w k → PartOf w (.hash es)
  | entry {w k o es} : (k, o) ∈ es → PartOf w o → PartOf w (.hash es)

/-- What an object is by itself, apart from the objects in it. -/
structure Proper (o : Object) : Prop where
  not_error (m : String) : o ≠ .error m
  key_kind {es : List (Object × Object)} {k w : Object} : o = .hash es → (k, w) ∈ es →
    (∃ n, k = .int n) ∨ (∃ b, k = .bool b) ∨ ∃ s, k = .string s
  keys_differ {es : List (Object × Object)} : o = .hash es → (es.map Prod.fst).Nodup
  body_block {ps : List String} {body : Stmt} {scope : Nat} : o = .function ps body scope →
    ∃ ss, body = .block ss

def Sound (o : Object) : Prop := ∀ w : Object, w.PartOf o → w.Proper

end Object

namespace Key

lemma object_injective : Function.Injective Key.object := by
  intro k l h
  cases k <;> cases l <;> cases h <;> rfl

lemma proper_object (k : Key) : k.object.Proper := by
  cases k <;> exact ⟨nofun, nofun, nofun, nofun⟩

end Key

namespace Value

lemma objects_eq_map (vs : List Value) : objects vs = vs.map object := by
  induction vs with
  | nil => rfl
  | cons v vs ih => rw [objects, ih, List.map_cons]

lemma entryObjects_eq_map (es : Entries Key Value) :
    entryObjects es = es.map fun entry => (entry.1.object, entry.2.object) := by
  induction es with
  | nil => rfl
  | cons entry es ih => rw [entryObjects, ih, List.map_cons]

lemma keys_entryObjects (es : Entries Key Value) :
    (entryObjects es).map Prod.fst = (Entries.keys es).map Key.object := by
  rw [entryObjects_eq_map, Entries.keys, List.map_map, List.map_map]
  rfl

lemma nodup_keys_entryObjects {es : Entries Key Value} :
    ((entryObjects es).map Prod.fst).Nodup ↔ (Entries.keys es).Nodup := by
  rw [keys_entryObjects, List.nodup_map_iff Key.object_injective]

lemma PartOf.object {v w : Value} (h : w.PartOf v) : w.object.PartOf v.object := by
  induction h with
  | whole => exact .whole _
  | element hv _ ih =>
    rw [Value.object, objects_eq_map]
    exact .element (List.mem_map_of_mem hv) ih
  | entry he _ ih =>
    rw [Value.object, entryObjects_eq_map]
    exact .entry (List.mem_map_of_mem he) ih

lemma partOf_object {w : Object} {v : Value} (h : w.PartOf v.object) :
    (∃ k : Key, w = k.object) ∨ ∃ u : Value, u.PartOf v ∧ w = u.object := by
  generalize ho : v.object = o at h
  induction h generalizing v with
  | whole => exact .inr ⟨v, .whole v, ho.symm⟩
  | element hmem _ ih =>
    cases v with
    | array vs =>
      cases ho
      rw [objects_eq_map] at hmem
      obtain ⟨v, hv, rfl⟩ := List.mem_map.mp hmem
      exact (ih rfl).imp id fun ⟨u, hu, hw⟩ => ⟨u, .element hv hu, hw⟩
    | _ => cases ho
  | key hmem hpart =>
    cases v with
    | hash es =>
      cases ho
      rw [entryObjects_eq_map] at hmem
      obtain ⟨⟨k, v⟩, -, he⟩ := List.mem_map.mp hmem
      obtain ⟨rfl, -⟩ := Prod.mk.inj he
      cases k <;> cases hpart <;> exact .inl ⟨_, rfl⟩
    | _ => cases ho
  | entry hmem _ ih =>
    cases v with
    | hash es =>
      cases ho
      rw [entryObjects_eq_map] at hmem
      obtain ⟨⟨k, v⟩, hkv, he⟩ := List.mem_map.mp hmem
      obtain ⟨-, rfl⟩ := Prod.mk.inj he
      exact (ih rfl).imp id fun ⟨u, hu, hw⟩ => ⟨u, .entry hkv hu, hw⟩
    | _ => cases ho

lemma object_ne_error (v : Value) (m : String) : v.object ≠ .error m := by
  cases v <;> exact nofun

lemma Sound.proper_object {v : Value} (h : v.Sound) : v.object.Proper where
  not_error := v.object_ne_error
  key_kind {es k w} hes hmem := by
    cases v with
    | hash fs =>
      cases hes
      rw [entryObjects_eq_map] at hmem
      obtain ⟨⟨l, v⟩, -, he⟩ := List.mem_map.mp hmem
      obtain ⟨rfl, -⟩ := Prod.mk.inj he
      cases l with
      | int n => exact .inl ⟨n, rfl⟩
      | bool b => exact .inr (.inl ⟨b, rfl⟩)
      | string s => exact .inr (.inr ⟨s, rfl⟩)
    | _ => cases hes
  keys_differ hes := by
    cases v with
    | hash fs =>
      cases hes
      exact nodup_keys_entryObjects.mpr (h fs (.whole _))
    | _ => cases hes
  body_block hf := by
    cases v with
    | function ps ss scope =>
      cases hf
      exact ⟨ss, rfl⟩
    | _ => cases hf

lemma Sound.part {v w : Value} (h : v.Sound) (hw : w.PartOf v) : w.Sound := by
  intro es hes
  refine h es ?_
  induction hw with
  | whole => exact hes
  | element hv _ ih => exact .element hv (ih (sound_array.mp h _ hv))
  | entry he _ ih => exact .entry he (ih ((sound_hash.mp h).2 _ he))

lemma sound_object_iff {v : Value} : v.object.Sound ↔ v.Sound := by
  constructor
  · intro h es hes
    exact nodup_keys_entryObjects.mp ((h _ hes.object).keys_differ rfl)
  · intro h w hw
    obtain ⟨k, rfl⟩ | ⟨u, hu, rfl⟩ := partOf_object hw
    · exact k.proper_object
    · exact (h.part hu).proper_object

end Value

namespace Object

mutual

lemma exists_value (o : Object) (h : o.Sound) : ∃ v : Value, v.object = o := by
  have hself := h o (.whole o)
  cases o with
  | int n => exact ⟨.int n, rfl⟩
  | float x => exact ⟨.float x, rfl⟩
  | string s => exact ⟨.string s, rfl⟩
  | bool b => exact ⟨.bool b, rfl⟩
  | null => exact ⟨.null, rfl⟩
  | builtin b => exact ⟨.builtin b, rfl⟩
  | error m => exact absurd rfl (hself.not_error m)
  | function ps body scope =>
    obtain ⟨ss, rfl⟩ := hself.body_block rfl
    exact ⟨.function ps ss scope, rfl⟩
  | array os =>
    obtain ⟨vs, rfl⟩ := exists_values os fun o ho w hw => h w (.element ho hw)
    exact ⟨.array vs, rfl⟩
  | hash es =>
    obtain ⟨fs, rfl⟩ := exists_entries es (fun k o he => hself.key_kind rfl he)
      fun k o he w hw => h w (.entry he hw)
    exact ⟨.hash fs, rfl⟩
termination_by structural o

lemma exists_values (os : List Object) (h : ∀ o ∈ os, o.Sound) :
    ∃ vs : List Value, Value.objects vs = os := by
  cases os with
  | nil => exact ⟨[], rfl⟩
  | cons o os =>
    obtain ⟨ho, hos⟩ := List.forall_mem_cons.mp h
    obtain ⟨v, rfl⟩ := exists_value o ho
    obtain ⟨vs, rfl⟩ := exists_values os hos
    exact ⟨v :: vs, rfl⟩
termination_by structural os

lemma exists_entries (es : List (Object × Object))
    (hkeys : ∀ k o, (k, o) ∈ es → (∃ n, k = .int n) ∨ (∃ b, k = .bool b) ∨ ∃ s, k = .string s)
    (h : ∀ k o, (k, o) ∈ es → o.Sound) : ∃ fs : Entries Key Value, Value.entryObjects fs = es := by
  cases es with
  | nil => exact ⟨[], rfl⟩
  | cons e es =>
    obtain ⟨k, o⟩ := e
    obtain ⟨v, rfl⟩ := exists_value o (h k o List.mem_cons_self)
    obtain ⟨fs, rfl⟩ := exists_entries es (fun k o he => hkeys k o (List.mem_cons_of_mem _ he))
      fun k o he => h k o (List.mem_cons_of_mem _ he)
    obtain ⟨n, rfl⟩ | ⟨b, rfl⟩ | ⟨s, rfl⟩ := hkeys k _ List.mem_cons_self
    · exact ⟨(.int n, v) :: fs, rfl⟩
    · exact ⟨(.bool b, v) :: fs, rfl⟩
    · exact ⟨(.string s, v) :: fs, rfl⟩
termination_by structural es

end

lemma sound_iff {o : Object} : o.Sound ↔ ∃ v : Value, v.Sound ∧ v.object = o := by
  constructor
  · intro h
    obtain ⟨v, rfl⟩ := o.exists_value h
    exact ⟨v, Value.sound_object_iff.mp h, rfl⟩
  · rintro ⟨v, hv, rfl⟩
    exact Value.sound_object_iff.mpr hv

end Object

end Nut
