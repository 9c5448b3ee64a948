import Mathlib.Data.Nat.Find
import Mathlib.Data.List.Infix
import Nut.Evaluation.Builtins

/-! Splitting goes through a text from the left, and joining the pieces undoes it. -/

namespace Nut

namespace Pieces

structure FirstAt (part text : List Char) (i : Nat) : Prop where
  here : part <+: text.drop i
  first : ∀ j < i, ¬part <+: text.drop j

section Search

variable {sep part p rest text : List Char} {c : Char} {i : Nat}

lemma occurs_iff : occurs part text ↔ part <:+: text := by
  induction text with
  | nil => simp [occurs]
  | cons c cs ih => simp [occurs, ih, List.infix_cons_iff]

lemma exists_firstAt (h : part <:+: text) : ∃ i, FirstAt part text i := by
  obtain ⟨before, after, rfl⟩ := h
  have hsome : ∃ i, part <+: (before ++ part ++ after).drop i :=
    ⟨before.length, by simp⟩
  exact ⟨Nat.find hsome, Nat.find_spec hsome, fun j hj => Nat.find_min hsome hj⟩

lemma splitFrom_skip (text : List Char) :
    splitFrom sep p.length (p ++ text) = splitFrom sep 0 text := by
  induction p with
  | nil => rfl
  | cons c p ih => rw [List.length_cons, List.cons_append, splitFrom, ih]

lemma splitFrom_of_not_infix (h : ¬sep <:+: text) : splitFrom sep 0 text = [text] := by
  induction text with
  | nil => rfl
  | cons c cs ih =>
    obtain ⟨hc, hcs⟩ := not_or.mp (List.infix_cons_iff.not.mp h)
    rw [splitFrom, if_neg (List.isPrefixOf_iff_prefix.not.mpr hc), ih hcs]
    rfl

lemma splitFrom_prefix (hsep : sep ≠ []) :
    splitFrom sep 0 (sep ++ rest) = [] :: splitFrom sep 0 rest := by
  have hpre : sep.isPrefixOf (sep ++ rest) :=
    List.isPrefixOf_iff_prefix.mpr (List.prefix_append _ _)
  obtain ⟨c, cs, rfl⟩ := List.exists_cons_of_ne_nil hsep
  rw [List.cons_append] at hpre ⊢
  rw [splitFrom, if_pos hpre, List.length_cons, Nat.add_sub_cancel, splitFrom_skip]

lemma splitFrom_of_firstAt (hsep : sep ≠ []) (h : FirstAt sep (p ++ sep) p.length) :
    splitFrom sep 0 (p ++ sep ++ rest) = p :: splitFrom sep 0 rest := by
  induction p with
  | nil => exact splitFrom_prefix hsep
  | cons c p ih =>
    have hno : ¬sep <+: c :: (p ++ sep ++ rest) := by
      intro hpre
      refine h.first 0 (Nat.succ_pos _) (List.prefix_of_prefix_length_le hpre ?_ ?_)
      · exact List.prefix_append (c :: (p ++ sep)) rest
      · simp
        omega
    have htail : FirstAt sep (p ++ sep) p.length :=
      ⟨h.here, fun j hj => h.first (j + 1) (Nat.succ_lt_succ hj)⟩
    rw [List.cons_append, List.cons_append, splitFrom,
      if_neg (List.isPrefixOf_iff_prefix.not.mpr hno), ih htail]
    rfl

lemma FirstAt.exists_cut (h : FirstAt sep text i) :
    ∃ p rest, text = p ++ sep ++ rest ∧ FirstAt sep (p ++ sep) p.length := by
  obtain ⟨rest, hrest⟩ := h.here
  have hsplit : text = text.take i ++ sep ++ rest := by
    rw [List.append_assoc, hrest, List.take_append_drop]
  have hpre : text.take i ++ sep <+: text := ⟨rest, hsplit.symm⟩
  refine ⟨text.take i, rest, hsplit, by simp, fun j hj hj' => ?_⟩
  have hlt : j < i := Nat.lt_of_lt_of_le hj (List.length_take_le i text)
  exact h.first j hlt (hj'.trans (List.IsPrefix.drop hpre j))

end Search

end Pieces

/-- The pieces of a text between the occurrences of a separator that a search from the left comes
to, one behind the other. -/
structure Cut (sep text : String) (pieces : List String) : Prop where
  nonempty : pieces ≠ []
  joined : sep.intercalate pieces = text
  leftmost : ∀ p ∈ pieces.dropLast, Pieces.FirstAt sep.toList (p ++ sep).toList p.length
  last : ∀ p ∈ pieces.getLast?, ¬sep.toList <:+: p.toList

namespace Cut

open Pieces

variable {sep text p q rest : String} {pieces more : List String}

lemma single (h : ¬sep.toList <:+: text.toList) : Cut sep text [text] where
  nonempty := List.cons_ne_nil _ _
  joined := String.intercalate_singleton
  leftmost := by simp
  last := by simpa using h

lemma cons (hp : FirstAt sep.toList (p ++ sep).toList p.length) (h : Cut sep rest pieces) :
    Cut sep (p ++ sep ++ rest) (p :: pieces) := by
  obtain ⟨q, more, rfl⟩ := List.exists_cons_of_ne_nil h.nonempty
  refine ⟨List.cons_ne_nil _ _, ?_, ?_, ?_⟩
  · rw [String.intercalate_cons_cons, h.joined]
  · rw [List.dropLast_cons_cons, List.forall_mem_cons]
    exact ⟨hp, h.leftmost⟩
  · rw [List.getLast?_cons_cons]
    exact h.last

lemma of_cons (h : Cut sep text (p :: q :: more)) :
    FirstAt sep.toList (p ++ sep).toList p.length ∧
      ∃ rest, text = p ++ sep ++ rest ∧ Cut sep rest (q :: more) := by
  obtain ⟨-, hjoined, hleftmost, hlast⟩ := h
  rw [List.dropLast_cons_cons, List.forall_mem_cons] at hleftmost
  rw [List.getLast?_cons_cons] at hlast
  rw [String.intercalate_cons_cons] at hjoined
  exact ⟨hleftmost.1, _, hjoined.symm, List.cons_ne_nil _ _, rfl, hleftmost.2, hlast⟩

lemma of_single (h : Cut sep text [p]) : p = text ∧ ¬sep.toList <:+: text.toList := by
  obtain rfl : p = text := String.intercalate_singleton.symm.trans h.joined
  exact ⟨rfl, h.last p rfl⟩

lemma two_le_length_iff (h : Cut sep text pieces) :
    2 ≤ pieces.length ↔ sep.toList <:+: text.toList := by
  match pieces, h with
  | [], h => exact absurd rfl h.nonempty
  | [p], h => simp [h.of_single.2]
  | p :: q :: more, h =>
    obtain ⟨-, rest, rfl, -⟩ := h.of_cons
    simp only [String.toList_append, List.length_cons, Nat.le_add_left, true_iff]
    exact ⟨p.toList, rest.toList, rfl⟩

end Cut

section Split

open Pieces

variable {sep text : String} {pieces : List String}

def cutAll (sep text : String) : List String :=
  (splitFrom sep.toList 0 text.toList).map String.ofList

lemma cutAll_cons (hsep : sep ≠ "") {p rest : String}
    (hp : FirstAt sep.toList (p ++ sep).toList p.length) :
    cutAll sep (p ++ sep ++ rest) = p :: cutAll sep rest := by
  have hne : sep.toList ≠ [] := String.toList_eq_nil_iff.not.mpr hsep
  rw [String.toList_append, ← String.length_toList] at hp
  rw [cutAll, String.toList_append, String.toList_append, splitFrom_of_firstAt hne hp, List.map_cons,
    String.ofList_toList]
  rfl

lemma cutAll_single (h : ¬sep.toList <:+: text.toList) : cutAll sep text = [text] := by
  rw [cutAll, splitFrom_of_not_infix h, List.map_singleton, String.ofList_toList]

lemma exists_first_cut (h : sep.toList <:+: text.toList) : ∃ p rest : String,
    text = p ++ sep ++ rest ∧ FirstAt sep.toList (p ++ sep).toList p.length := by
  obtain ⟨i, hi⟩ := exists_firstAt h
  obtain ⟨p, rest, htext, hp⟩ := hi.exists_cut
  refine ⟨.ofList p, .ofList rest, ?_, ?_⟩
  · rw [← String.toList_inj, htext]
    simp
  · simpa using hp

lemma cut_cutAll (hsep : sep ≠ "") (text : String) : Cut sep text (cutAll sep text) := by
  induction hn : text.length using Nat.strongRecOn generalizing text with
  | ind n ih =>
    by_cases h : sep.toList <:+: text.toList
    · obtain ⟨p, rest, rfl, hp⟩ := exists_first_cut h
      have hpos : 0 < sep.length := Nat.pos_of_ne_zero (String.length_eq_zero_iff.not.mpr hsep)
      have hshorter : rest.length < n := by
        rw [← hn, String.length_append, String.length_append]
        omega
      rw [cutAll_cons hsep hp]
      exact .cons hp (ih rest.length hshorter rest rfl)
    · rw [cutAll_single h]
      exact .single h

lemma Cut.eq_cutAll (hsep : sep ≠ "") (h : Cut sep text pieces) : pieces = cutAll sep text := by
  induction pieces generalizing text with
  | nil => exact absurd rfl h.nonempty
  | cons p more ih =>
    cases more with
    | nil =>
      obtain ⟨rfl, hno⟩ := h.of_single
      exact (cutAll_single hno).symm
    | cons q more =>
      obtain ⟨hp, rest, rfl, hrest⟩ := h.of_cons
      rw [cutAll_cons hsep hp, ← ih hrest]

lemma call_split (hsep : sep ≠ "") (t : State) :
    Builtin.split.call [.string text, .string sep] t =
      .normal (.array ((cutAll sep text).map .string)) t := by
  have hne : ¬sep.toList.isEmpty := by simpa using hsep
  show Eval.ofExcept (.ok (Builtin.pieces text.toList sep.toList)) t = _
  rw [Builtin.pieces, Pieces.split, if_neg hne, cutAll, List.map_map]
  rfl

lemma call_split_empty (text : String) (t : State) :
    Builtin.split.call [.string text, .string ""] t =
      .normal (.array ((text.toList.map String.singleton).map .string)) t := by
  have hempty : "".toList.isEmpty := rfl
  show Eval.ofExcept (.ok (Builtin.pieces text.toList "".toList)) t = _
  rw [Builtin.pieces, split, if_pos hempty, List.map_map, List.map_map]
  simp only [Function.comp_def, ← String.singleton_eq_ofList]
  rfl

lemma call_includes (text part : String) (t : State) :
    Builtin.includes.call [.string text, .string part] t =
      .normal (.bool (part.toList <:+: text.toList)) t := by
  show Outcome.normal (Value.bool (occurs part.toList text.toList)) t = _
  rw [Bool.eq_iff_iff.mpr (occurs_iff.trans decide_eq_true_iff.symm)]

end Split

theorem split_cut (s sep : String) (t : State) :
    (sep ≠ "" → ∃ pieces : List String,
      Builtin.split.call [.string s, .string sep] t = .normal (.array (pieces.map .string)) t ∧
        Cut sep s pieces ∧ (∀ others, Cut sep s others → others = pieces) ∧
        Builtin.includes.call [.string s, .string sep] t =
          .normal (.bool (2 ≤ pieces.length)) t) ∧
      ∃ pieces : List String,
        Builtin.split.call [.string s, .string ""] t = .normal (.array (pieces.map .string)) t ∧
          pieces = s.toList.map String.singleton ∧ String.join pieces = s ∧
          (pieces = [] ↔ s = "") := by
  constructor
  · intro hsep
    have hcut := cut_cutAll hsep s
    refine ⟨cutAll sep s, call_split hsep t, hcut, fun others h => h.eq_cutAll hsep, ?_⟩
    rw [call_includes]
    simp only [hcut.two_le_length_iff]
  · refine ⟨s.toList.map String.singleton, call_split_empty s t, rfl, ?_, ?_⟩
    · rw [← String.toList_inj, String.toList_join, List.flatMap_map]
      simp
    · simp

theorem split_cut_overlapping :
    let s := State.initial 0
    "éé" ≠ "" ∧
      Builtin.split.call [.string "ééé", .string "éé"] s =
        .normal (.array [.string "", .string "é"]) s ∧
      Cut "éé" "ééé" ["", "é"] ∧ ¬Cut "éé" "ééé" ["é", ""] ∧
      Builtin.includes.call [.string "ééé", .string "éé"] s = .normal (.bool true) s := by
  intro s
  have hne : "éé" ≠ "" := by decide
  have hcall : Builtin.split.call [.string "ééé", .string "éé"] s =
      .normal (.array [.string "", .string "é"]) s := by cbv
  obtain ⟨pieces, hpieces, hcut, hunique, hincludes⟩ := (split_cut "ééé" "éé" s).1 hne
  obtain rfl : ["", "é"] = pieces := by
    injection hcall.symm.trans hpieces with harray
    injection harray with hmap
    exact List.map_injective_iff.mpr (fun _ _ => Value.string.inj) hmap
  refine ⟨hne, hcall, hcut, fun h => ?_, hincludes⟩
  exact absurd (hunique _ h) (by decide)

end Nut
