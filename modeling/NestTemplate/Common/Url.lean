import NestTemplate.Common.FormUrlencoded

/-!
# URLs

A URL is what stands before its query (scheme, authority and path), the query
and the fragment. How the first part is read is left to a parameter `front`;
the rest follows the URL standard: the first `#` starts the fragment, the first
`?` before it the query.

* `parts_chars`, `toString_injective`: the text of a URL determines it.
* `searchParams_append`: a parameter is added behind the ones already there.
-/

namespace Common

namespace Url

/-- A serialized scheme, authority and path. -/
structure Front where
  text : List Char
  noQuery : '?' ∉ text
  noFragment : '#' ∉ text
  deriving DecidableEq

/-- Whether the scheme is a special one. -/
def Front.isSpecial (front : Front) : Bool :=
  (cut ':' front.text).1 ∈ ["ftp", "file", "http", "https", "ws", "wss"].map String.toList

end Url

/-- `URL`. The query and the fragment are percent-encoded. -/
structure Url where
  front : Url.Front
  query : Option (List Char)
  fragment : Option (List Char)
  noFragment : ∀ q ∈ query, '#' ∉ q
  deriving DecidableEq

namespace Url

theorem eq_of_parts {u v : Url} (hf : u.front = v.front) (hq : u.query = v.query)
    (hg : u.fragment = v.fragment) : u = v := by
  cases u; cases v; cases hf; cases hq; cases hg; rfl

/-! ## Parsing -/

/-- A C0 control or a space. -/
def isC0OrSpace (c : Char) : Bool := c.toNat ≤ 0x20

/-- The input without controls and spaces at its ends, and without tabs and newlines. -/
def clean (cs : List Char) : List Char :=
  (((cs.dropWhile isC0OrSpace).reverse.dropWhile isC0OrSpace).reverse).filter
    (· ∉ ['\t', '\n', '\r'])

theorem isC0OrSpace_of_mem : ∀ c ∈ ['\t', '\n', '\r'], isC0OrSpace c = true := by
  rw [← List.all_eq_true]
  decide

theorem filter_dropWhile {drop keep : Char → Bool} (h : ∀ c, keep c = true → drop c = false)
    (cs : List Char) : (cs.dropWhile drop).filter keep = cs.filter keep := by
  induction cs with
  | nil => rfl
  | cons c cs ih =>
    rw [List.dropWhile_cons]
    split
    · rename_i hdrop
      rw [ih, List.filter_cons_of_neg]
      intro hkeep
      rw [h c hkeep] at hdrop
      cases hdrop
    · rfl

theorem mem_of_mem_clean {cs : List Char} {c : Char} (h : c ∈ clean cs) : c ∈ cs := by
  have hends := List.mem_reverse.mp (List.mem_filter.mp h).1
  have hstart := List.mem_reverse.mp ((List.dropWhile_sublist _).subset hends)
  exact (List.dropWhile_sublist _).subset hstart

/-- Other characters stay. -/
theorem filter_clean {keep : Char → Bool} (h : ∀ c, keep c = true → isC0OrSpace c = false)
    (cs : List Char) : (clean cs).filter keep = cs.filter keep := by
  have hand : ∀ c, (keep c && decide (c ∉ ['\t', '\n', '\r'])) = keep c := by
    intro c
    cases hc : keep c with
    | false => rfl
    | true =>
      refine decide_eq_true fun hmem => ?_
      have htrue := isC0OrSpace_of_mem c hmem
      rw [h c hc] at htrue
      cases htrue
  unfold clean
  rw [List.filter_filter]
  simp only [hand]
  rw [List.filter_reverse, filter_dropWhile h, List.filter_reverse, List.reverse_reverse,
    filter_dropWhile h]

/-- What stands before the query, the query and the fragment. -/
def parts (cs : List Char) : List Char × Option (List Char) × Option (List Char) :=
  let (rest, fragment) := cut '#' cs
  let (front, query) := cut '?' rest
  (front, query, fragment)

/-- No C0 control and no character after `~`. -/
def isPrintableAscii (c : Char) : Bool := 0x20 ≤ c.toNat ∧ c.toNat ≤ 0x7e

/-- The characters a query keeps. -/
def keepQuery (special : Bool) (c : Char) : Bool :=
  isPrintableAscii c && c ∉ [' ', '"', '#', '<', '>'] && !(special && c = '\x27')

/-- The characters a fragment keeps. -/
def keepFragment (c : Char) : Bool := isPrintableAscii c && c ∉ [' ', '"', '<', '>', '\x60']

theorem keepQuery_hash (special : Bool) : keepQuery special '#' = false := by
  cases special <;> decide

/-- `new URL(s)`; `none` where it throws. -/
def parse (front : List Char → Option Front) (s : String) : Option Url :=
  let (head, query, fragment) := parts (clean s.toList)
  (front head).map fun f =>
    { front := f
      query := query.map (percentEncode (keepQuery f.isSpecial))
      fragment := fragment.map (percentEncode keepFragment)
      noFragment := by
        intro q hq
        obtain ⟨q, -, rfl⟩ := Option.map_eq_some_iff.mp hq
        exact notMem_percentEncode (keepQuery_hash _) (by decide) q }

/-! ## The text of a URL -/

def chars (u : Url) : List Char :=
  (u.front.text ++ u.query.elim [] ('?' :: ·)) ++ u.fragment.elim [] ('#' :: ·)

/-- `url.toString()`. -/
def toString (u : Url) : String := String.ofList u.chars

@[simp] theorem parts_chars (u : Url) : parts u.chars = (u.front.text, u.query, u.fragment) := by
  have hhash : '#' ∉ u.front.text ++ u.query.elim [] ('?' :: ·) := by
    rw [List.mem_append, not_or]
    refine ⟨u.front.noFragment, ?_⟩
    cases hq : u.query with
    | none => exact List.not_mem_nil
    | some q =>
      rw [Option.elim_some, List.mem_cons, not_or]
      exact ⟨by decide, u.noFragment q hq⟩
  rw [parts, chars, cut_append_elim hhash]
  show ((cut '?' _).1, (cut '?' _).2, u.fragment) = _
  rw [cut_append_elim u.front.noQuery]

/-- The text of a URL determines it. -/
theorem toString_injective {u v : Url} (h : u.toString = v.toString) : u = v := by
  have hchars : u.chars = v.chars := String.ofList_injective h
  have hparts := congrArg parts hchars
  rw [parts_chars, parts_chars, Prod.mk.injEq, Prod.mk.injEq] at hparts
  obtain ⟨hf, hq, hg⟩ := hparts
  refine eq_of_parts ?_ hq hg
  cases hu : u.front; cases hv : v.front
  rw [hu, hv] at hf
  cases hf
  rfl

/-! ## Query parameters -/

/-- `url.searchParams`. -/
def searchParams (u : Url) : List (String × String) := FormUrlencoded.parse (u.query.getD [])

/-- `url.searchParams.append(name, value)`. -/
def append (u : Url) (name value : String) : Url where
  front := u.front
  query := some (FormUrlencoded.serialize (u.searchParams ++ [(name, value)]))
  fragment := u.fragment
  noFragment := by
    rintro q ⟨⟩
    exact FormUrlencoded.notMem_serialize (by decide) (by decide) _

/-- The other parameters stay as they were. -/
@[simp] theorem searchParams_append (u : Url) (name value : String) :
    (u.append name value).searchParams = u.searchParams ++ [(name, value)] :=
  FormUrlencoded.parse_serialize _

/-- The parameters of the request that a browser sends for the address `s`. -/
def queryOf (s : String) : List (String × String) :=
  FormUrlencoded.parse ((parts s.toList).2.1.getD [])

@[simp] theorem queryOf_toString (u : Url) : queryOf u.toString = u.searchParams := by
  rw [queryOf, toString, String.toList_ofList, parts_chars, searchParams]

/-- The URL of a page without a query. -/
def ofFront (front : Front) : Url where
  front := front
  query := none
  fragment := none
  noFragment := by rintro q ⟨⟩

@[simp] theorem searchParams_ofFront (front : Front) : (ofFront front).searchParams = [] := rfl

end Url

end Common
