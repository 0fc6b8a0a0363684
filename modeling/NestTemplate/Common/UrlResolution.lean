import Mathlib.Data.List.DropRight
import Mathlib.Data.List.Forall2
import NestTemplate.Common.Parts
import NestTemplate.Common.Url

/-!
# URLs resolved against a base

How a text is read as a URL in the context of a base with a special scheme: it
has a scheme of its own, or an authority of its own, or a path from the root, or
a path that goes on where the base's does. How an authority is read, and a URL
of another scheme, are parameters.

* `walk`: a path with its dot segments.
* `walk_eq_apply`: a walk takes segments from the end of a path and adds others.
* `agrees_ofSegments`, `Move.Agrees.of_apply`: when two walks do the same.
* `resolve`: the URL of a text and a base.
-/

namespace Common

namespace Url

open Parts

/-! ## Paths -/

/-- A slash, or a backslash, which counts as one where the scheme is special. -/
def isSlash (c : Char) : Bool := c = '/' || c = '\\'

theorem isC0OrSpace_of_isSlash {c : Char} (h : isSlash c = true) : isC0OrSpace c = false := by
  simp only [isSlash, Bool.or_eq_true, decide_eq_true_eq] at h
  rcases h with rfl | rfl <;> decide

/-- The characters a path keeps. -/
def keepPath (c : Char) : Bool :=
  isPrintableAscii c && c ∉ [' ', '"', '#', '<', '>', '?', '^', '\x60', '{', '}']

/-- A segment of a path, percent-encoded. -/
@[ext]
structure Segment where
  text : List Char
  noQuery : '?' ∉ text
  noFragment : '#' ∉ text

instance : DecidableEq Segment := fun _ _ => decidable_of_iff _ Segment.ext_iff.symm

def encodeSegment (cs : List Char) : Segment where
  text := percentEncode keepPath cs
  noQuery := notMem_percentEncode (by decide) (by decide) cs
  noFragment := notMem_percentEncode (by decide) (by decide) cs

/-- The segment without characters. -/
def Segment.blank : Segment := encodeSegment []

/-- What a segment does to the path before it. -/
inductive SegmentKind where
  | name
  | singleDot
  | doubleDot
  deriving DecidableEq

/-- A dot may be percent-encoded. -/
def Segment.kind (segment : Segment) : SegmentKind :=
  let lower := segment.text.map Char.toLower
  if [['.'], ['%', '2', 'e']].any (· = lower) then .singleDot
  else if [['.', '.'], ['.', '%', '2', 'e'], ['%', '2', 'e', '.'],
    ['%', '2', 'e', '%', '2', 'e']].any (· = lower) then .doubleDot
  else .name

section Walk

variable {α β : Type*}

/-- The path after one more segment. -/
def walkStep (kind : α → SegmentKind) (path : List α) (x : α) : List α :=
  match kind x with
  | .name => path ++ [x]
  | .singleDot => path
  | .doubleDot => path.dropLast

/-- Dots at the end leave a blank segment. -/
def ending (blank : α) (kinds : List SegmentKind) : List α :=
  if kinds.getLast?.all (· = .name) then [] else [blank]

/-- The path after all segments. -/
def walk (kind : α → SegmentKind) (blank : α) (path xs : List α) : List α :=
  xs.foldl (walkStep kind) path ++ ending blank (xs.map kind)

/-- What segments do to any path: they take some from its end and add others. -/
structure Move (α : Type*) where
  up : ℕ
  added : List α

namespace Move

def apply (move : Move α) (path : List α) : List α := path.rdrop move.up ++ move.added

def back : Move α → Move α
  | ⟨up, []⟩ => ⟨up + 1, []⟩
  | ⟨up, added⟩ => ⟨up, added.dropLast⟩

def step (kind : α → SegmentKind) (move : Move α) (x : α) : Move α :=
  match kind x with
  | .name => { move with added := move.added ++ [x] }
  | .singleDot => move
  | .doubleDot => move.back

def ofSegments (kind : α → SegmentKind) (blank : α) (xs : List α) : Move α where
  up := (xs.foldl (step kind) ⟨0, []⟩).up
  added := (xs.foldl (step kind) ⟨0, []⟩).added ++ ending blank (xs.map kind)

theorem length_apply (move : Move α) (path : List α) :
    (move.apply path).length = path.length - move.up + move.added.length := by
  unfold apply List.rdrop
  rw [List.length_append, List.length_take]
  omega

theorem apply_back (move : Move α) (path : List α) : move.back.apply path = (move.apply path).dropLast := by
  obtain ⟨up, _ | ⟨x, xs⟩⟩ := move
  · simp only [back, apply, List.append_nil, List.rdrop, List.dropLast_eq_take, List.take_take,
      List.length_take]
    congr 1
    omega
  · exact (List.dropLast_append_of_ne_nil (List.cons_ne_nil x xs)).symm

theorem apply_step (kind : α → SegmentKind) (move : Move α) (path : List α) (x : α) :
    (move.step kind x).apply path = walkStep kind (move.apply path) x := by
  unfold step walkStep
  cases kind x with
  | name => exact (List.append_assoc ..).symm
  | singleDot => rfl
  | doubleDot => exact move.apply_back path

end Move

/-- A walk is a move, whatever the path. -/
theorem walk_eq_apply (kind : α → SegmentKind) (blank : α) (path xs : List α) :
    walk kind blank path xs = (Move.ofSegments kind blank xs).apply path := by
  have hfoldl : ∀ move : Move α, xs.foldl (walkStep kind) (move.apply path) =
      (xs.foldl (Move.step kind) move).apply path := by
    induction xs with
    | nil => exact fun _ => rfl
    | cons x xs ih =>
      intro move
      rw [List.foldl_cons, List.foldl_cons, ← Move.apply_step, ih]
  have hstart : (⟨0, []⟩ : Move α).apply path = path := by simp [Move.apply]
  have h := hfoldl ⟨0, []⟩
  rw [hstart] at h
  unfold walk
  rw [h]
  exact List.append_assoc ..

variable {R : α → β → Prop} {kind : α → SegmentKind} {kind' : β → SegmentKind} {blank : α}
  {blank' : β}

theorem forall₂_dropLast {xs : List α} {ys : List β} (h : List.Forall₂ R xs ys) :
    List.Forall₂ R xs.dropLast ys.dropLast := by
  rw [List.dropLast_eq_take, List.dropLast_eq_take, h.length_eq]
  exact List.forall₂_take _ h

/-- Two moves that do the same. -/
structure Move.Agrees (R : α → β → Prop) (move : Move α) (move' : Move β) : Prop where
  up : move.up = move'.up
  added : List.Forall₂ R move.added move'.added

namespace Move.Agrees

variable {move : Move α} {move' : Move β}

theorem apply (h : move.Agrees R move') {path : List α} {path' : List β}
    (hpath : List.Forall₂ R path path') : List.Forall₂ R (move.apply path) (move'.apply path') := by
  unfold Move.apply List.rdrop
  rw [h.up, hpath.length_eq]
  exact List.rel_append (List.forall₂_take _ hpath) h.added

/-- Moves that agree on paths of every length agree. -/
theorem of_apply (blank : α) (blank' : β)
    (h : ∀ n : ℕ, List.Forall₂ R (move.apply (List.replicate n blank))
      (move'.apply (List.replicate n blank'))) : move.Agrees R move' := by
  have hlength := fun n => (h n).length_eq
  simp only [Move.length_apply, List.length_replicate] at hlength
  refine ⟨?_, by simpa [Move.apply] using h 0⟩
  have hnone := hlength 0
  have hsome := hlength (move.up + move'.up)
  omega

theorem back (h : move.Agrees R move') : move.back.Agrees R move'.back := by
  obtain ⟨up, added⟩ := move
  obtain ⟨up', added'⟩ := move'
  obtain ⟨rfl, hadded⟩ := h
  cases hadded with
  | nil => exact ⟨rfl, .nil⟩
  | cons hxy hrest => exact ⟨rfl, forall₂_dropLast (.cons hxy hrest)⟩

theorem step (h : move.Agrees R move') {x : α} {y : β} (hxy : R x y ∧ kind x = kind' y) :
    (move.step kind x).Agrees R (move'.step kind' y) := by
  unfold Move.step
  rw [hxy.2]
  cases kind' y with
  | name => exact ⟨h.up, List.rel_append h.added (.cons hxy.1 .nil)⟩
  | singleDot => exact h
  | doubleDot => exact h.back

end Move.Agrees

/-- Segments that agree in what they do make moves that agree. -/
theorem agrees_ofSegments (hblank : R blank blank') {xs : List α} {ys : List β}
    (h : List.Forall₂ (fun x y => R x y ∧ kind x = kind' y) xs ys) :
    (Move.ofSegments kind blank xs).Agrees R (Move.ofSegments kind' blank' ys) := by
  have hfoldl : (xs.foldl (Move.step kind) ⟨0, []⟩).Agrees R
      (ys.foldl (Move.step kind') ⟨0, []⟩) :=
    List.rel_foldl (fun _ _ hmove _ _ => hmove.step) ⟨rfl, .nil⟩ h
  have hkinds : xs.map kind = ys.map kind' := by
    rw [← List.forall₂_eq_eq_eq, List.forall₂_map_left_iff, List.forall₂_map_right_iff]
    exact h.imp fun _ _ => And.right
  refine ⟨hfoldl.up, List.rel_append hfoldl.added ?_⟩
  rw [hkinds]
  unfold ending
  split
  · exact .nil
  · exact .cons hblank .nil

/-- Without dots all segments are added. -/
theorem ofSegments_of_name {xs : List α} (h : ∀ x ∈ xs, kind x = .name) :
    Move.ofSegments kind blank xs = ⟨0, xs⟩ := by
  have hfoldl : ∀ move : Move α,
      xs.foldl (Move.step kind) move = { move with added := move.added ++ xs } := by
    induction xs with
    | nil => exact fun move => by rw [List.append_nil]; rfl
    | cons x xs ih =>
      intro move
      rw [List.forall_mem_cons] at h
      rw [List.foldl_cons, ih h.2]
      unfold Move.step
      rw [h.1, List.append_assoc]
      rfl
  have hending : ending blank (xs.map kind) = [] := by
    refine if_pos ?_
    rw [Option.all_eq_true]
    intro k hk
    obtain ⟨x, hx, rfl⟩ := List.mem_map.mp (List.mem_of_getLast? hk)
    exact decide_eq_true (h x hx)
  unfold Move.ofSegments
  rw [hfoldl, hending, List.append_nil]
  rfl

end Walk

/-- The path of a text, behind a path. -/
def readPath (path : List Segment) (cs : List Char) : List Segment :=
  walk Segment.kind .blank path ((cs.splitOnP isSlash).map encodeSegment)

/-- What the text does to a path. -/
def textMove (cs : List Char) : Move Segment :=
  Move.ofSegments Segment.kind .blank ((cs.splitOnP isSlash).map encodeSegment)

theorem readPath_eq_apply (path : List Segment) (cs : List Char) :
    readPath path cs = (textMove cs).apply path :=
  walk_eq_apply ..

/-! ## Addresses -/

/-- The special schemes but `file`. -/
inductive SpecialScheme where
  | ftp
  | http
  | https
  | ws
  | wss
  deriving DecidableEq

namespace SpecialScheme

def text : SpecialScheme → List Char
  | .ftp => "ftp".toList
  | .http => "http".toList
  | .https => "https".toList
  | .ws => "ws".toList
  | .wss => "wss".toList

def ofText? (cs : List Char) : Option SpecialScheme :=
  [SpecialScheme.ftp, .http, .https, .ws, .wss].find? (·.text = cs)

end SpecialScheme

/-- Credentials, host and port. -/
@[ext]
structure Authority where
  text : List Char
  noQuery : '?' ∉ text
  noFragment : '#' ∉ text

instance : DecidableEq Authority := fun _ _ => decidable_of_iff _ Authority.ext_iff.symm

/-- The scheme and the authority. They determine the origin. -/
structure Site where
  scheme : SpecialScheme
  authority : Authority
  deriving DecidableEq

structure Address where
  site : Site
  path : List Segment
  deriving DecidableEq

def Address.text (address : Address) : List Char :=
  address.site.scheme.text ++ "://".toList ++ address.site.authority.text ++
    address.path.flatMap ('/' :: ·.text)

theorem Address.notMem_text (address : Address) : '?' ∉ address.text ∧ '#' ∉ address.text := by
  have hscheme : ∀ scheme : SpecialScheme, '?' ∉ scheme.text ++ "://".toList ∧
      '#' ∉ scheme.text ++ "://".toList := by
    intro scheme
    cases scheme <;> decide
  have hpath : '?' ∉ address.path.flatMap ('/' :: ·.text) ∧
      '#' ∉ address.path.flatMap ('/' :: ·.text) := by
    simp only [List.mem_flatMap, List.mem_cons, not_exists, not_and, not_or]
    exact ⟨fun segment _ => ⟨by decide, segment.noQuery⟩,
      fun segment _ => ⟨by decide, segment.noFragment⟩⟩
  obtain ⟨hquery, hfragment⟩ := hscheme address.site.scheme
  unfold text
  refine ⟨fun h => ?_, fun h => ?_⟩
  · rcases List.mem_append.mp h with h | h
    · exact (List.mem_append.mp h).elim hquery address.site.authority.noQuery
    · exact hpath.1 h
  · rcases List.mem_append.mp h with h | h
    · exact (List.mem_append.mp h).elim hfragment address.site.authority.noFragment
    · exact hpath.2 h

/-- What stands before the query. -/
def Address.front (address : Address) : Front where
  text := address.text
  noQuery := address.notMem_text.1
  noFragment := address.notMem_text.2

/-! ## Resolution -/

/-- A URL with a special scheme, as a base. -/
structure Base where
  address : Address
  query : Option (List Char)
  noFragment : ∀ q ∈ query, '#' ∉ q

/-- How an authority is read, for a scheme, and the rest of a URL of another scheme. -/
structure Readers where
  authority : SpecialScheme → List Char → Option Authority
  other : List Char → List Char → Option Front

/-- Where a URL leads. -/
inductive Place where
  | special (address : Address)
  | other (front : Front)

def Place.front : Place → Front
  | .special address => address.front
  | .other front => front

/-- The characters of a scheme behind the first one. -/
def isSchemeChar (c : Char) : Bool := c.isAlphanum || c ∈ ['+', '-', '.']

/-- The scheme a text starts with, in lower case, and what follows its colon. -/
def scheme? : List Char → Option (List Char × List Char)
  | [] => none
  | c :: cs =>
    if c.isAlpha then
      match cs.dropWhile isSchemeChar with
      | ':' :: rest => some ((c :: cs.takeWhile isSchemeChar).map Char.toLower, rest)
      | _ => none
    else none

/-- An address with an authority of its own. -/
def readAuthority (readers : Readers) (scheme : SpecialScheme) (cs : List Char) : Option Address :=
  let rest := cs.dropWhile isSlash
  (readers.authority scheme (rest.takeWhile (!isSlash ·))).map fun authority =>
    ⟨⟨scheme, authority⟩, readPath [] ((rest.dropWhile (!isSlash ·)).drop 1)⟩

/-- An authority is read for the scheme. -/
theorem readAuthority_eq_some {readers : Readers} {scheme : SpecialScheme} {cs : List Char}
    {address : Address} (h : readAuthority readers scheme cs = some address) :
    address.site.scheme = scheme := by
  obtain ⟨authority, -, rfl⟩ := Option.map_eq_some_iff.mp h
  rfl

/-- A text without a scheme, in the context of the base. -/
def readRelative (readers : Readers) (base : Address) : List Char → Option Address
  | [] => some base
  | c :: cs =>
    if isSlash c then
      if cs.head?.any isSlash then readAuthority readers base.site.scheme cs
      else some { base with path := readPath [] cs }
    else some { base with path := readPath base.path.dropLast (c :: cs) }

/-- The place of a text without query and fragment, and whether it is empty and keeps the query of
    the base. -/
def locate (readers : Readers) (base : Address) (cs : List Char) : Option (Place × Bool) :=
  match scheme? cs with
  | none => (readRelative readers base cs).map fun address => (.special address, cs = [])
  | some (scheme, rest) =>
    match SpecialScheme.ofText? scheme with
    | none => (readers.other scheme rest).map fun front => (.other front, false)
    | some scheme =>
      -- a relative text may repeat the scheme of the base
      if scheme = base.site.scheme ∧ ¬ ['/', '/'] <+: rest then
        (readRelative readers base rest).map fun address => (.special address, rest = [])
      else (readAuthority readers scheme rest).map fun address => (.special address, false)

/-- A URL by its place. -/
structure Resolved where
  place : Place
  query : Option (List Char)
  fragment : Option (List Char)
  noFragment : ∀ q ∈ query, '#' ∉ q

def Resolved.toUrl (resolved : Resolved) : Url where
  front := resolved.place.front
  query := resolved.query
  fragment := resolved.fragment
  noFragment := resolved.noFragment

/-- `new URL(input, base)`; `none` where it throws. -/
def resolve (readers : Readers) (base : Base) (input : String) : Option Resolved :=
  let (head, query, fragment) := parts (clean input.toList)
  (locate readers base.address head).map fun (place, keepsQuery) =>
    { place := place
      query := query.elim (if keepsQuery then base.query else none) fun q =>
        some (percentEncode (keepQuery place.front.isSpecial) q)
      fragment := fragment.map (percentEncode keepFragment)
      noFragment := by
        intro q hq
        cases query with
        | none =>
          rw [Option.elim_none] at hq
          split at hq
          · exact base.noFragment q hq
          · cases hq
        | some text =>
          cases hq
          exact notMem_percentEncode (keepQuery_hash _) (by decide) text }

section Resolve

variable {readers : Readers} {base : Base} {input : String} {head : List Char}
  {query fragment : Option (List Char)}
  (hparts : parts (clean input.toList) = (head, query, fragment))

include hparts

/-- A text that leads somewhere has a URL there. -/
theorem exists_resolve {place : Place} {keepsQuery : Bool}
    (h : locate readers base.address head = some (place, keepsQuery)) :
    ∃ resolved, resolve readers base input = some resolved ∧ resolved.place = place ∧
      resolved.query = (query.elim (if keepsQuery then base.query else none) fun q =>
        some (percentEncode (keepQuery place.front.isSpecial) q)) ∧
      resolved.fragment = fragment.map (percentEncode keepFragment) := by
  unfold resolve
  simp only [hparts, h]
  exact ⟨_, rfl, rfl, rfl, rfl⟩

/-- The URL of a text is where the text leads. -/
theorem exists_locate {resolved : Resolved} (h : resolve readers base input = some resolved) :
    ∃ keepsQuery, locate readers base.address head = some (resolved.place, keepsQuery) ∧
      resolved.query = (query.elim (if keepsQuery then base.query else none) fun q =>
        some (percentEncode (keepQuery resolved.place.front.isSpecial) q)) ∧
      resolved.fragment = fragment.map (percentEncode keepFragment) := by
  unfold resolve at h
  simp only [hparts] at h
  obtain ⟨⟨place, keepsQuery⟩, hlocate, rfl⟩ := Option.map_eq_some_iff.mp h
  exact ⟨keepsQuery, hlocate, rfl, rfl⟩

end Resolve

end Url

end Common
