import Mathlib.Data.List.Infix
import Mathlib.Tactic.Common

/-! # Texts of lines

A text between two-letter marks is the list of its lines: every text has lines, and where the
two letters of the mark differ it has no others. A scanner reads such a text at an index of
the block that holds it.
-/
namespace Sonoff.Lines

variable {α : Type*} {cr lf : α} {block text line back : List α} {x : α} {i : ℕ}

def StandsAt (block : List α) (i : ℕ) (text : List α) : Prop := text <+: block.drop i

theorem StandsAt.head (h : StandsAt block i (x :: text)) : block[i]? = some x := by
  obtain ⟨rest,hrest⟩ := h
  have hget : (block.drop i)[0]? = some x := by simp [← hrest]
  simpa using hget

theorem StandsAt.right (h : StandsAt block i (line ++ back)) :
    StandsAt block (i + line.length) back := by
  have hdrop := List.IsPrefix.drop h line.length
  rwa [List.drop_left, List.drop_drop] at hdrop

theorem StandsAt.left (h : StandsAt block i (line ++ back)) : StandsAt block i line :=
  (List.prefix_append line back).trans h

theorem StandsAt.tail (h : StandsAt block i (x :: text)) : StandsAt block (i + 1) text :=
  @StandsAt.right _ block [x] text i h

def Unbroken (cr lf : α) (line : List α) : Prop := ¬[cr, lf] <:+: line

/-- The text is these lines with a mark between each and the next. -/
structure LinesOf (cr lf : α) (text : List α) (lines : List (List α)) : Prop where
  nonempty : lines ≠ []
  unbroken : ∀ line ∈ lines, Unbroken cr lf line
  text : [cr, lf].intercalate lines = text

theorem unbroken_nil : Unbroken cr lf [] := by
  intro h
  cases List.eq_nil_of_infix_nil h

theorem Unbroken.tail (h : Unbroken cr lf (x :: line)) : Unbroken cr lf line := fun hinfix =>
  h (List.IsInfix.trans hinfix (List.suffix_cons x line).isInfix)

/-- A letter before an unbroken line breaks it only as the front of a mark. -/
theorem Unbroken.cons (h : Unbroken cr lf line) (hx : ¬(x = cr ∧ line.head? = some lf)) :
    Unbroken cr lf (x :: line) := by
  intro hinfix
  obtain hprefix | htail := List.infix_cons_iff.mp hinfix
  · obtain ⟨rest,hrest⟩ := hprefix
    obtain ⟨rfl,rfl⟩ := List.cons.inj hrest
    exact hx ⟨rfl, rfl⟩
  · exact h htail

/-- A text is unbroken, or breaks first behind some line. -/
theorem exists_break (cr lf : α) (text : List α) :
    Unbroken cr lf text ∨ ∃ line back, Unbroken cr lf line ∧ text = line ++ cr :: lf :: back := by
  induction text with
  | nil => exact Or.inl unbroken_nil
  | cons x text ih =>
    by_cases hx : x = cr ∧ text.head? = some lf
    · obtain ⟨rfl,hhead⟩ := hx
      obtain ⟨back,rfl⟩ := List.head?_eq_some_iff.mp hhead
      exact Or.inr ⟨[], back, unbroken_nil, rfl⟩
    · obtain hunbroken | ⟨line,back,hline,rfl⟩ := ih
      · exact Or.inl (hunbroken.cons hx)
      · right
        refine ⟨x :: line, back, hline.cons fun h => hx ⟨h.1, ?_⟩, rfl⟩
        rw [List.head?_append, h.2]
        rfl

/-- The first letter of an unbroken line is no front of a mark, whatever mark follows the line. -/
theorem Unbroken.head_ne (hne : cr ≠ lf) (h : Unbroken cr lf (x :: line)) (back : List α) :
    ¬(x = cr ∧ (line ++ cr :: back).head? = some lf) := by
  rintro ⟨rfl,hhead⟩
  cases line with
  | nil => exact hne (Option.some.inj hhead)
  | cons y line =>
    obtain rfl : y = lf := Option.some.inj hhead
    exact h ⟨[], line, rfl⟩

theorem break_unique (hne : cr ≠ lf) {line' back' : List α} (h : Unbroken cr lf line)
    (h' : Unbroken cr lf line') (heq : line ++ cr :: lf :: back = line' ++ cr :: lf :: back') :
    line = line' ∧ back = back' := by
  induction line generalizing line' with
  | nil =>
    cases line' with
    | nil => exact ⟨rfl, (List.cons.inj (List.cons.inj heq).2).2⟩
    | cons y line' =>
      obtain ⟨rfl,hrest⟩ := List.cons.inj heq
      exact absurd ⟨rfl, congrArg List.head? hrest.symm⟩ (h'.head_ne hne (lf :: back'))
  | cons x line ih =>
    cases line' with
    | nil =>
      obtain ⟨rfl,hrest⟩ := List.cons.inj heq
      exact absurd ⟨rfl, congrArg List.head? hrest⟩ (h.head_ne hne (lf :: back))
    | cons y line' =>
      obtain ⟨rfl,hrest⟩ := List.cons.inj heq
      obtain ⟨rfl,rfl⟩ := ih h.tail h'.tail hrest
      exact ⟨rfl, rfl⟩

theorem unbroken_of_append_mark (line back : List α) : ¬Unbroken cr lf (line ++ cr :: lf :: back) :=
  fun h =>
  h ⟨line, back, by simp⟩

theorem LinesOf.single (h : Unbroken cr lf text) : LinesOf cr lf text [text] :=
  ⟨List.cons_ne_nil _ _, by simpa using h, by simp⟩

theorem LinesOf.cons {lines : List (List α)} (hline : Unbroken cr lf line)
    (h : LinesOf cr lf back lines) : LinesOf cr lf (line ++ cr :: lf :: back) (line :: lines) where
  nonempty := List.cons_ne_nil _ _
  unbroken := List.forall_mem_cons.mpr ⟨hline, h.unbroken⟩
  text := by
    rw [List.intercalate_cons_of_ne_nil h.nonempty, h.text]
    simp

/-- A text has no other lines. -/
theorem LinesOf.unique (hne : cr ≠ lf) {lines lines' : List (List α)} (h : LinesOf cr lf text lines)
    (h' : LinesOf cr lf text lines') : lines = lines' := by
  induction lines generalizing text lines' with
  | nil => exact absurd rfl h.nonempty
  | cons line rest ih =>
    obtain ⟨_,hunbroken,htext⟩ := h
    obtain ⟨hnonempty',hunbroken',htext'⟩ := h'
    obtain ⟨hline,hrest⟩ := List.forall_mem_cons.mp hunbroken
    cases lines' with
    | nil => exact absurd rfl hnonempty'
    | cons line' rest' =>
      obtain ⟨hline',hrest'⟩ := List.forall_mem_cons.mp hunbroken'
      by_cases hone : rest = []
      · subst hone
        rw [List.intercalate_singleton] at htext
        by_cases hone' : rest' = []
        · subst hone'
          rw [List.intercalate_singleton] at htext'
          rw [htext, htext']
        · rw [List.intercalate_cons_of_ne_nil hone', List.append_assoc] at htext'
          rw [htext, ← htext'] at hline
          exact absurd hline (unbroken_of_append_mark _ _)
      · rw [List.intercalate_cons_of_ne_nil hone, List.append_assoc] at htext
        by_cases hone' : rest' = []
        · subst hone'
          rw [List.intercalate_singleton] at htext'
          rw [htext', ← htext] at hline'
          exact absurd hline' (unbroken_of_append_mark _ _)
        · rw [List.intercalate_cons_of_ne_nil hone', List.append_assoc] at htext'
          obtain ⟨rfl,hback⟩ := break_unique hne hline hline' (htext.trans htext'.symm)
          rw [ih ⟨hone, hrest, rfl⟩ ⟨hone', hrest', hback.symm⟩]

end Sonoff.Lines
