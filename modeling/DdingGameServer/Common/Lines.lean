import Mathlib.Data.List.Basic
import Mathlib.Data.List.Infix
import Mathlib.Tactic.Common
/-!
# Texts in lines

A text is read as the lines it ends in a terminator, and a last one that may not. The lines give the
text back, and a list of such lines is what its own text is read as (`readLines_flatten`): so a line
that is put in front of another stays a line when the text is read again. `insertBefore` puts one in
front of the first that satisfies a test, and `replace` is the replacement of the occurrences of a
text, from left to right.
-/

namespace DdingGameServer

namespace Lines

universe u

variable {α : Type u} [DecidableEq α] {nl : α} {text line body : List α}
  {lines before behind : List (List α)}

/-! ## Reading and writing lines -/

/-- The lines of a text, each with its terminator `nl`. -/
def readLines (nl : α) : List α → List (List α)
  | [] => []
  | a :: rest =>
    if a = nl then [a] :: readLines nl rest
    else match readLines nl rest with
      | [] => [[a]]
      | line :: lines => (a :: line) :: lines

/-- **Lines as a text has them**: every line has one terminator, at its end, and the last one may
have none. -/
inductive IsLines (nl : α) : List (List α) → Prop
  | nil : IsLines nl []
  | last {line : List α} : line ≠ [] → nl ∉ line → IsLines nl [line]
  | cons {body : List α} {lines : List (List α)} : nl ∉ body → IsLines nl lines →
      IsLines nl ((body ++ [nl]) :: lines)

omit [DecidableEq α] in
/-- Another character in front of the first line. -/
theorem IsLines.cons_head {a : α} (ha : a ≠ nl) (h : IsLines nl (line :: lines)) :
    IsLines nl ((a :: line) :: lines) := by
  cases h with
  | last _ hmem =>
    refine .last (List.cons_ne_nil _ _) fun hnl => ?_
    exact (List.mem_cons.mp hnl).elim (fun heq => ha heq.symm) hmem
  | @cons body _ hmem hlines =>
    show IsLines nl (((a :: body) ++ [nl]) :: _)
    refine .cons (fun hnl => ?_) hlines
    exact (List.mem_cons.mp hnl).elim (fun heq => ha heq.symm) hmem

/-- **What is read are lines**, -/
theorem isLines_readLines (nl : α) (text : List α) : IsLines nl (readLines nl text) := by
  induction text with
  | nil => exact .nil
  | cons a rest ih =>
    rw [readLines]
    split
    · rename_i ha
      subst ha
      exact .cons List.not_mem_nil ih
    · rename_i ha
      cases hrest : readLines nl rest with
      | nil => exact .last (List.cons_ne_nil _ _) fun hnl => ha (List.mem_singleton.mp hnl).symm
      | cons line lines => exact (hrest ▸ ih).cons_head ha

/-- and together they are the text. -/
theorem flatten_readLines (nl : α) (text : List α) : (readLines nl text).flatten = text := by
  induction text with
  | nil => rfl
  | cons a rest ih =>
    rw [readLines]
    split
    · rw [List.flatten_cons, ih, List.singleton_append]
    · cases hrest : readLines nl rest with
      | nil =>
        rw [hrest] at ih
        rw [← ih]
        rfl
      | cons line lines =>
        rw [hrest] at ih
        rw [← ih]
        rfl

/-- A whole line is read as it is. -/
theorem readLines_append (h : nl ∉ body) (text : List α) :
    readLines nl (body ++ nl :: text) = (body ++ [nl]) :: readLines nl text := by
  induction body with
  | nil => rw [List.nil_append, readLines, if_pos rfl, List.nil_append]
  | cons a body ih =>
    obtain ⟨ha, hbody⟩ := not_or.mp (mt List.mem_cons.mpr h)
    rw [List.cons_append, readLines, if_neg (Ne.symm ha), ih hbody]
    rfl

/-- And so is a last one. -/
theorem readLines_of_not_mem (hne : line ≠ []) (h : nl ∉ line) : readLines nl line = [line] := by
  induction line with
  | nil => exact absurd rfl hne
  | cons a line ih =>
    obtain ⟨ha, hline⟩ := not_or.mp (mt List.mem_cons.mpr h)
    rw [readLines, if_neg (Ne.symm ha)]
    cases line with
    | nil => rfl
    | cons b line => rw [ih (List.cons_ne_nil _ _) hline]

/-- **Lines are what their text is read as.** -/
theorem readLines_flatten (h : IsLines nl lines) : readLines nl lines.flatten = lines := by
  induction h with
  | nil => rfl
  | last hne hmem => rw [List.flatten_singleton, readLines_of_not_mem hne hmem]
  | cons hmem _ ih =>
    rw [List.flatten_cons, List.append_assoc, List.singleton_append, readLines_append hmem, ih]

omit [DecidableEq α] in
/-- A whole line may stand in front of any other. -/
theorem IsLines.insert (h : IsLines nl (before ++ behind)) (hne : behind ≠ []) (hbody : nl ∉ body) :
    IsLines nl (before ++ (body ++ [nl]) :: behind) := by
  induction before with
  | nil => exact .cons hbody h
  | cons line before ih =>
    rw [List.cons_append] at h ⊢
    generalize hlines : before ++ behind = lines at h
    cases h with
    | last _ _ => exact absurd (List.append_eq_nil_iff.mp hlines).2 hne
    | cons hmem hrest => exact .cons hmem (ih (hlines ▸ hrest))

/-! ## In front of the first -/

/-- Insert `a` in front of the first element that satisfies `p`; nowhere, if none does. -/
def insertBefore (p : α → Bool) (a : α) : List α → List α
  | [] => []
  | b :: rest => if p b then a :: b :: rest else b :: insertBefore p a rest

variable {p : α → Bool} {a : α} {l : List α}

omit [DecidableEq α] in
/-- **Where an element satisfies the test**, something is inserted in front of it. -/
theorem exists_insertBefore (h : ∃ b ∈ l, p b = true) : ∃ before behind, behind ≠ [] ∧
    l = before ++ behind ∧ insertBefore p a l = before ++ a :: behind := by
  induction l with
  | nil =>
    obtain ⟨b, hb, -⟩ := h
    cases hb
  | cons b rest ih =>
    by_cases hb : p b = true
    · exact ⟨[], b :: rest, List.cons_ne_nil _ _, rfl, by rw [insertBefore, if_pos hb]; rfl⟩
    · have hrest : ∃ b ∈ rest, p b = true := by
        obtain ⟨b', hb', hp⟩ := h
        rcases List.mem_cons.mp hb' with rfl | hb'
        · exact absurd hp hb
        · exact ⟨b', hb', hp⟩
      obtain ⟨before, behind, hne, heq, hins⟩ := ih hrest
      refine ⟨b :: before, behind, hne, ?_, ?_⟩
      · rw [heq, List.cons_append]
      · rw [insertBefore, if_neg hb, hins, List.cons_append]

omit [DecidableEq α] in
/-- Where none does, nothing is. -/
theorem insertBefore_of_forall (h : ∀ b ∈ l, p b = false) : insertBefore p a l = l := by
  induction l with
  | nil => rfl
  | cons b rest ih =>
    have hb : ¬ p b = true := by rw [h b List.mem_cons_self]; decide
    rw [insertBefore, if_neg hb, ih fun b' hb' => h b' (List.mem_cons_of_mem _ hb')]

/-! ## Replacing -/

/-- Replace `old` by `new` from left to right, behind `skip` characters of an occurrence. -/
def replaceLoop (old new : List α) : ℕ → List α → List α
  | _, [] => []
  | skip + 1, _ :: rest => replaceLoop old new skip rest
  | 0, a :: rest =>
    if old.isPrefixOf (a :: rest) then new ++ replaceLoop old new (old.length - 1) rest
    else a :: replaceLoop old new 0 rest

/-- **Replace every occurrence of `old` by `new`.** -/
def replace (old new text : List α) : List α := replaceLoop old new 0 text

/-- `old` occurs in `text` at its end only. -/
def OnlyAtEnd (old text : List α) : Prop := ∀ before behind, text = before ++ old ++ behind →
  behind = []

variable {old new base : List α}

omit [DecidableEq α] in
/-- Only the parts of the text come into question. -/
theorem onlyAtEnd_iff : OnlyAtEnd old text ↔ ∀ before ∈ text.inits, ∀ behind ∈ text.tails,
    text = before ++ old ++ behind → behind = [] := by
  refine ⟨fun h before _ behind _ => h before behind, fun h before behind heq => ?_⟩
  refine h before ?_ behind ?_ heq
  · rw [List.mem_inits, heq, List.append_assoc]
    exact List.prefix_append ..
  · rw [List.mem_tails, heq]
    exact List.suffix_append ..

instance : Decidable (OnlyAtEnd old text) := decidable_of_iff' _ onlyAtEnd_iff

theorem replaceLoop_length (old new text : List α) :
    replaceLoop old new text.length text = [] := by
  induction text with
  | nil => rfl
  | cons a text ih => rw [List.length_cons, replaceLoop, ih]

/-- **An occurrence at the end is replaced there**, if there is no other. -/
theorem replace_append (hold : old ≠ []) (h : OnlyAtEnd old (base ++ old)) :
    replace old new (base ++ old) = base ++ new := by
  unfold replace
  induction base with
  | nil =>
    obtain ⟨a, rest, rfl⟩ := List.exists_cons_of_ne_nil hold
    have hfirst : (a :: rest).isPrefixOf (a :: rest) = true :=
      List.isPrefixOf_iff_prefix.mpr List.prefix_rfl
    rw [List.nil_append, replaceLoop, if_pos hfirst, List.length_cons, Nat.add_sub_cancel,
      replaceLoop_length, List.append_nil, List.nil_append]
  | cons a base ih =>
    have hfirst : ¬ old.isPrefixOf (a :: (base ++ old)) = true := by
      rw [List.isPrefixOf_iff_prefix]
      rintro ⟨behind, hbehind⟩
      obtain rfl := h [] behind (by rw [List.nil_append, hbehind, List.cons_append])
      have hlength := congrArg List.length hbehind
      simp at hlength
      omega
    have hrest : OnlyAtEnd old (base ++ old) := by
      intro before behind heq
      exact h (a :: before) behind (by rw [List.cons_append, heq]; rfl)
    rw [List.cons_append, replaceLoop, if_neg hfirst, ih hrest, List.cons_append]

end Lines

end DdingGameServer
