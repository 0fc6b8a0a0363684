import Mathlib.Data.List.Infix

/-!
# Templates with placeholders

A template is a text in which `:name` stands for a value; the name is the
longest identifier after the colon. Which characters make an identifier is a
parameter.

* `splitFirst`: the first occurrence of a text in another.
* `Template.pieces`: a template as its characters and placeholders.
* `Template.fill_pieces_none`: nothing of the template is lost.
* `Template.fill_append`: a value changes only the placeholders of its name.
-/

namespace Common

/-! ## The first occurrence of a text -/

/-- What stands before the first occurrence of `pattern`, and what follows it. -/
def splitFirst (pattern : List Char) : List Char → Option (List Char × List Char)
  | [] => if pattern = [] then some ([], []) else none
  | c :: cs =>
    if pattern <+: c :: cs then some ([], (c :: cs).drop pattern.length)
    else (splitFirst pattern cs).map fun (before, after) => (c :: before, after)

theorem splitFirst_eq_none {pattern text : List Char} :
    splitFirst pattern text = none ↔ ¬ pattern <:+: text := by
  induction text with
  | nil =>
    rw [splitFirst, List.infix_nil]
    split <;> simp_all
  | cons c cs ih =>
    rw [splitFirst, List.infix_cons_iff, not_or, ← ih]
    split
    · rename_i h
      simp [h]
    · rename_i h
      simp [h]

/-- The text is put together from the two parts and the occurrence. -/
theorem eq_append_of_splitFirst {pattern text before after : List Char}
    (h : splitFirst pattern text = some (before, after)) : text = before ++ pattern ++ after := by
  induction text generalizing before with
  | nil =>
    rw [splitFirst] at h
    split at h
    · cases h
      simp_all
    · cases h
  | cons c cs ih =>
    rw [splitFirst] at h
    split at h
    · rename_i hpre
      cases h
      exact (List.prefix_iff_eq_append.mp hpre).symm
    · obtain ⟨⟨before', after'⟩, hsplit, heq⟩ := Option.map_eq_some_iff.mp h
      cases heq
      rw [List.cons_append, List.cons_append, ← ih hsplit]

/-- A text is split at an occurrence that nothing before overlaps. -/
theorem splitFirst_append {pattern before : List Char}
    (h : ¬ pattern <:+: before ++ pattern.dropLast) (after : List Char) :
    splitFirst pattern (before ++ pattern ++ after) = some (before, after) := by
  induction before with
  | nil =>
    cases pattern with
    | nil => exact absurd List.nil_infix h
    | cons p pattern =>
      show splitFirst (p :: pattern) (p :: (pattern ++ after)) = _
      rw [splitFirst, if_pos (by exact List.prefix_append (p :: pattern) after)]
      have hdrop : (p :: pattern ++ after).drop (p :: pattern).length = after := List.drop_left
      exact congrArg (fun rest => some ([], rest)) hdrop
  | cons c before ih =>
    have hrest : ¬ pattern <:+: before ++ pattern.dropLast :=
      fun hin => h (hin.trans (List.suffix_cons c _).isInfix)
    have hhere : ¬ pattern <+: c :: (before ++ pattern ++ after) := by
      intro hpre
      refine h (List.prefix_of_prefix_length_le hpre ?_ ?_).isInfix
      · rw [List.append_assoc]
        exact (List.prefix_append_right_inj (c :: before)).mpr
          ((List.dropLast_prefix pattern).trans (List.prefix_append ..))
      · simp
        omega
    show splitFirst pattern (c :: (before ++ pattern ++ after)) = _
    rw [splitFirst, if_neg hhere, ih hrest]
    rfl

namespace Template

/-! ## Placeholders -/

/-- The characters of an identifier: the first one, and the others. -/
structure Identifiers where
  isStart : Char → Bool
  isPart : Char → Bool

/-- The longest identifier that a text starts with. -/
def Identifiers.longest (ids : Identifiers) : List Char → List Char
  | [] => []
  | c :: cs => if ids.isStart c then c :: cs.takeWhile ids.isPart else []

theorem Identifiers.longest_isPrefix (ids : Identifiers) (cs : List Char) : ids.longest cs <+: cs := by
  unfold longest
  split
  · exact List.prefix_rfl
  · split
    · exact (List.cons_prefix_cons).mpr ⟨rfl, List.takeWhile_prefix _⟩
    · exact List.nil_prefix

/-- A character of a template, or a placeholder. -/
inductive Piece where
  | text (c : Char)
  | placeholder (name : String)
  deriving DecidableEq

/-- The pieces of a text, of which the first `skip` characters belong to a name already read. -/
def scan (ids : Identifiers) : ℕ → List Char → List Piece
  | _, [] => []
  | skip + 1, _ :: cs => scan ids skip cs
  | 0, c :: cs =>
    let name := ids.longest cs
    if c = ':' ∧ name ≠ [] then .placeholder (String.ofList name) :: scan ids name.length cs
    else .text c :: scan ids 0 cs

/-- The pieces of a template. -/
def pieces (ids : Identifiers) (template : List Char) : List Piece := scan ids 0 template

/-- A piece with the values filled in. -/
def Piece.fill (values : String → Option String) : Piece → List Char
  | .text c => [c]
  | .placeholder name => (values name).elim (':' :: name.toList) String.toList

/-- All placeholders with a value replaced by it at once. -/
def fill (values : String → Option String) (ps : List Piece) : List Char :=
  ps.flatMap (Piece.fill values)

theorem fill_scan_none (ids : Identifiers) (cs : List Char) (skip : ℕ) :
    fill (fun _ => none) (scan ids skip cs) = cs.drop skip := by
  unfold fill
  fun_induction scan ids skip cs with
  | case1 skip => rw [List.drop_nil]; rfl
  | case2 skip c cs ih => rw [ih, List.drop_succ_cons]
  | case3 c cs name h ih =>
    obtain ⟨rfl, -⟩ := h
    rw [List.flatMap_cons, ih, Piece.fill, Option.elim_none, String.toList_ofList, List.cons_append]
    exact congrArg (':' :: ·) (List.prefix_iff_eq_append.mp (ids.longest_isPrefix cs))
  | case4 c cs name h ih => rw [List.flatMap_cons, ih]; rfl

/-- Without values a template stays as it is. -/
theorem fill_pieces_none (ids : Identifiers) (template : List Char) :
    fill (fun _ => none) (pieces ids template) = template := fill_scan_none ids template 0

@[simp] theorem fill_append (values : String → Option String) (ps qs : List Piece) :
    fill values (ps ++ qs) = fill values ps ++ fill values qs := List.flatMap_append

@[simp] theorem fill_cons (values : String → Option String) (p : Piece) (ps : List Piece) :
    fill values (p :: ps) = p.fill values ++ fill values ps := List.flatMap_cons

/-- Only the values of the names that occur matter. -/
theorem fill_congr {values values' : String → Option String} {ps : List Piece}
    (h : ∀ name, .placeholder name ∈ ps → values name = values' name) :
    fill values ps = fill values' ps := by
  refine List.flatMap_congr fun p hp => ?_
  cases p with
  | text c => rfl
  | placeholder name => rw [Piece.fill, Piece.fill, h name hp]

end Template

end Common
