import Mathlib.Data.List.DropRight
import Mathlib.Data.List.TakeWhile
import Nut.Evaluation.Builtins

/-! Trimming takes its margins off a text, and nothing else. -/

namespace Nut

namespace Pieces

variable {cutset before text after : List Char}

lemma trimStart_append (hb : ∀ c ∈ before, c ∈ cutset) (ht : ∀ c ∈ text.head?, c ∉ cutset) :
    trimStart cutset (before ++ text) = text := by
  rw [trimStart, List.dropWhile_append_of_pos (by simpa using hb)]
  cases text with
  | nil => rfl
  | cons c cs => exact List.dropWhile_cons_of_neg (by simpa using ht c rfl)

lemma trimEnd_append (ha : ∀ c ∈ after, c ∈ cutset) (ht : ∀ c ∈ text.getLast?, c ∉ cutset) :
    trimEnd cutset (text ++ after) = text := by
  have hreverse : trimStart cutset (after.reverse ++ text.reverse) = text.reverse :=
    trimStart_append (by simpa using ha) (by simpa using ht)
  rw [trimStart, ← List.reverse_append] at hreverse
  rw [trimEnd, hreverse, List.reverse_reverse]

lemma trim_append (hb : ∀ c ∈ before, c ∈ cutset) (ha : ∀ c ∈ after, c ∈ cutset)
    (hfirst : ∀ c ∈ text.head?, c ∉ cutset) (hlast : ∀ c ∈ text.getLast?, c ∉ cutset) :
    trim cutset (before ++ text ++ after) = text := by
  cases text with
  | nil =>
    -- The search from the left has already taken all, so that from the right finds nothing.
    have hall : ∀ c ∈ before ++ after, c ∈ cutset := List.forall_mem_append.mpr ⟨hb, ha⟩
    have hstart : trimStart cutset (before ++ after ++ []) = [] := trimStart_append hall nofun
    rw [List.append_nil] at hstart
    rw [trim, List.append_nil, hstart]
    rfl
  | cons c cs =>
    have hstart : trimStart cutset (before ++ (c :: cs ++ after)) = c :: cs ++ after :=
      trimStart_append hb hfirst
    rw [trim, List.append_assoc, hstart, trimEnd_append ha hlast]

lemma trimStart_margin (cutset text : List Char) : ∃ before,
    text = before ++ trimStart cutset text ∧ (∀ c ∈ before, c ∈ cutset) ∧
      ∀ c ∈ (trimStart cutset text).head?, c ∉ cutset := by
  refine ⟨text.takeWhile cutset.contains, List.takeWhile_append_dropWhile.symm, ?_, ?_⟩
  · intro c hc
    simpa using List.mem_takeWhile_imp hc
  · intro c hc
    have hnot := List.head?_dropWhile_not cutset.contains text
    rw [show (text.dropWhile cutset.contains).head? = some c from hc] at hnot
    simpa using hnot

lemma trimEnd_margin (cutset text : List Char) : ∃ after,
    text = trimEnd cutset text ++ after ∧ (∀ c ∈ after, c ∈ cutset) ∧
      ∀ c ∈ (trimEnd cutset text).getLast?, c ∉ cutset := by
  obtain ⟨before, hsplit, hb, hfirst⟩ := trimStart_margin cutset text.reverse
  refine ⟨before.reverse, ?_, by simpa using hb, ?_⟩
  · rw [trimEnd, ← List.reverse_append]
    exact List.reverse_eq_iff.mp hsplit
  · rw [trimEnd, List.getLast?_reverse]
    exact hfirst

lemma trim_margin (cutset text : List Char) : ∃ before after,
    text = before ++ trim cutset text ++ after ∧ (∀ c ∈ before, c ∈ cutset) ∧
      (∀ c ∈ after, c ∈ cutset) ∧ (∀ c ∈ (trim cutset text).head?, c ∉ cutset) ∧
      ∀ c ∈ (trim cutset text).getLast?, c ∉ cutset := by
  obtain ⟨before, hstart, hb, hfirst⟩ := trimStart_margin cutset text
  obtain ⟨after, hend, ha, hlast⟩ := trimEnd_margin cutset (trimStart cutset text)
  rw [← trim] at hend hlast
  rw [hend] at hstart hfirst
  refine ⟨before, after, ?_, hb, ha, fun c hc => ?_, hlast⟩
  · rw [List.append_assoc]
    exact hstart
  · exact hfirst c (List.mem_head?_append_of_mem_head? hc)

end Pieces

/-- The text is what is left of the other one when its margins in the cutset are taken off. -/
structure Trimmed (cutset whole text : String) : Prop where
  margins : ∃ before after, whole = before ++ text ++ after ∧
    (∀ c ∈ before.toList, c ∈ cutset.toList) ∧ ∀ c ∈ after.toList, c ∈ cutset.toList
  first : ∀ c ∈ text.toList.head?, c ∉ cutset.toList
  last : ∀ c ∈ text.toList.getLast?, c ∉ cutset.toList

namespace Trimmed

open Pieces

variable {cutset other whole text : String}

lemma toList_eq (h : Trimmed cutset whole text) :
    trim cutset.toList whole.toList = text.toList := by
  obtain ⟨⟨before, after, rfl, hb, ha⟩, hfirst, hlast⟩ := h
  rw [String.toList_append, String.toList_append, trim_append hb ha hfirst hlast]

lemma unique {text' : String} (h : Trimmed cutset whole text) (h' : Trimmed cutset whole text') :
    text' = text :=
  String.toList_inj.mp (h'.toList_eq.symm.trans h.toList_eq)

lemma call_trim (h : Trimmed cutset whole text) (s : State) :
    Builtin.trim.call [.string whole, .string cutset] s = .normal (.string text) s := by
  show Outcome.normal (Builtin.trimmed whole.toList cutset.toList) s = _
  rw [Builtin.trimmed, h.toList_eq, String.ofList_toList]

lemma eq_empty_iff (h : Trimmed cutset whole text) :
    text = "" ↔ ∀ c ∈ whole.toList, c ∈ cutset.toList := by
  obtain ⟨⟨before, after, rfl, hb, ha⟩, hfirst, -⟩ := h
  simp only [String.toList_append, List.forall_mem_append]
  constructor
  · rintro rfl
    exact ⟨⟨hb, nofun⟩, ha⟩
  · rintro ⟨⟨-, hall⟩, -⟩
    by_contra hne
    obtain ⟨c, cs, hc⟩ := List.exists_cons_of_ne_nil (String.toList_eq_nil_iff.not.mpr hne)
    rw [hc] at hall hfirst
    exact hfirst c rfl (hall c (.head cs))

lemma self (hfirst : ∀ c ∈ text.toList.head?, c ∉ cutset.toList)
    (hlast : ∀ c ∈ text.toList.getLast?, c ∉ cutset.toList) : Trimmed cutset text text :=
  ⟨⟨"", "", by simp, nofun, nofun⟩, hfirst, hlast⟩

lemma append (h : Trimmed cutset whole text) (hfirst : ∀ c ∈ text.toList.head?, c ∉ other.toList)
    (hlast : ∀ c ∈ text.toList.getLast?, c ∉ other.toList) :
    Trimmed (cutset ++ other) whole text := by
  obtain ⟨⟨before, after, hsplit, hb, ha⟩, hfirst', hlast'⟩ := h
  have hmem (c : Char) : c ∈ (cutset ++ other).toList ↔ c ∈ cutset.toList ∨ c ∈ other.toList := by
    rw [String.toList_append, List.mem_append]
  refine ⟨⟨before, after, hsplit, ?_, ?_⟩, ?_, ?_⟩
  · exact fun c hc => (hmem c).mpr (.inl (hb c hc))
  · exact fun c hc => (hmem c).mpr (.inl (ha c hc))
  · exact fun c hc hin => ((hmem c).mp hin).elim (hfirst' c hc) (hfirst c hc)
  · exact fun c hc hin => ((hmem c).mp hin).elim (hlast' c hc) (hlast c hc)

lemma exists_trimmed (cutset whole : String) : ∃ text, Trimmed cutset whole text := by
  obtain ⟨before, after, hsplit, hb, ha, hfirst, hlast⟩ := trim_margin cutset.toList whole.toList
  refine ⟨.ofList (trim cutset.toList whole.toList), ⟨.ofList before, .ofList after, ?_⟩, ?_, ?_⟩
  · simp only [← String.toList_inj, String.toList_append, String.toList_ofList]
    exact ⟨hsplit, hb, ha⟩
  · rwa [String.toList_ofList]
  · rwa [String.toList_ofList]

end Trimmed

theorem trim_margins (v c : String) (s : State) : ∃ t : String,
    Builtin.trim.call [.string v, .string c] s = .normal (.string t) s ∧ Trimmed c v t ∧
      (∀ t', Trimmed c v t' → t' = t) ∧ (t = "" ↔ ∀ x ∈ v.toList, x ∈ c.toList) ∧
      Builtin.trim.call [.string t, .string c] s = .normal (.string t) s ∧
      ∀ d : String, (∀ x ∈ t.toList.head?, x ∉ d.toList) → (∀ x ∈ t.toList.getLast?, x ∉ d.toList) →
        Builtin.trim.call [.string t, .string d] s =
          Builtin.trim.call [.string v, .string (c ++ d)] s := by
  obtain ⟨t, h⟩ := Trimmed.exists_trimmed c v
  refine ⟨t, h.call_trim s, h, fun t' h' => h.unique h', h.eq_empty_iff,
    (Trimmed.self h.first h.last).call_trim s, fun d hfirst hlast => ?_⟩
  rw [(Trimmed.self hfirst hlast).call_trim, (h.append hfirst hlast).call_trim]

theorem trim_margins_dots :
    let s := State.initial 0
    Builtin.trim.call [.string "..a-é.", .string "."] s = .normal (.string "a-é") s ∧
      Trimmed "." "..a-é." "a-é" ∧ ¬Trimmed "." "..a-é." "a-é." ∧
      Builtin.trim.call [.string "a-é", .string "."] s = .normal (.string "a-é") s ∧
      Builtin.trim.call [.string "a-é", .string "-"] s =
        Builtin.trim.call [.string "..a-é.", .string ".-"] s ∧
      Trimmed "." "..." "" := by
  intro s
  have hcall : Builtin.trim.call [.string "..a-é.", .string "."] s = .normal (.string "a-é") s := by
    cbv
  obtain ⟨t, ht, htrimmed, hunique, -, hagain, hwider⟩ := trim_margins "..a-é." "." s
  obtain rfl : "a-é" = t := by
    injection hcall.symm.trans ht with ht
    injection ht
  obtain ⟨t, -, hdots, -, hempty, -⟩ := trim_margins "..." "." s
  obtain rfl : t = "" := hempty.mpr (by simp)
  refine ⟨hcall, htrimmed, fun h => ?_, hagain, hwider "-" (by simp) (by simp), hdots⟩
  exact absurd (hunique _ h) (by decide)

end Nut
