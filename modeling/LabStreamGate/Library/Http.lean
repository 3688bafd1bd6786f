import Mathlib.Algebra.Order.BigOperators.Group.List
import Mathlib.Algebra.Order.Group.Nat

/-!
# What requests and answers are made of

Status codes, header values as bytes with the text they may hold, and the string operations of
the Rust standard library that the handlers use.
-/

namespace LabStreamGate

inductive StatusCode
  | ok
  | created
  | accepted
  | noContent
  | badRequest
  | unauthorized
  | forbidden
  | notFound
  | gone
  | tooManyRequests
  | internalServerError
  | serviceUnavailable
  deriving DecidableEq, Repr

/-- The status and the text of an answer that turns a request down. -/
abbrev Refusal := StatusCode × String

/-- A header value is bytes; not all of them are text. -/
structure HeaderValue where
  bytes : List UInt8
  deriving DecidableEq, Repr

def isVisibleAscii (b : UInt8) : Bool := (32 ≤ b && b < 127) || b == 9

/-- `HeaderValue::to_str`: the value as text where all its bytes are visible ASCII. -/
def HeaderValue.toStr (value : HeaderValue) : Option String :=
  if value.bytes.all isVisibleAscii then
    some (String.ofList (value.bytes.map fun b ↦ Char.ofNat b.toNat))
  else none

theorem HeaderValue.toStr_eq_some {value : HeaderValue} {text : String} :
    value.toStr = some text ↔ value.bytes.all isVisibleAscii = true ∧
      text.toList = value.bytes.map fun b ↦ Char.ofNat b.toNat := by
  unfold HeaderValue.toStr
  split
  case isTrue hvisible =>
    rw [Option.some.injEq, and_iff_right hvisible, ← String.toList_inj, String.toList_ofList]
    exact eq_comm
  case isFalse hhidden => simp [hhidden]

/-- The text is that of some header value. -/
def IsHeaderText (text : String) : Prop := ∃ value : HeaderValue, value.toStr = some text

theorem IsHeaderText.suffix {text o : String} (h : IsHeaderText text)
    (ho : o.toList <:+ text.toList) : IsHeaderText o := by
  obtain ⟨value, hvalue⟩ := h
  obtain ⟨hvisible, htext⟩ := HeaderValue.toStr_eq_some.mp hvalue
  obtain ⟨front, hfront⟩ := ho
  refine ⟨⟨value.bytes.drop front.length⟩, HeaderValue.toStr_eq_some.mpr ⟨?_, ?_⟩⟩
  · rw [List.all_eq_true] at hvisible ⊢
    exact fun b hb ↦ hvisible b (List.mem_of_mem_drop hb)
  · show o.toList = (value.bytes.drop front.length).map _
    rw [List.map_drop, ← htext, ← hfront, List.drop_left]

/-- A longer text that ends with a given one. -/
theorem IsHeaderText.lengthen {text : String} (h : IsHeaderText text) (n : Nat) :
    ∃ value longer, HeaderValue.toStr value = some longer ∧
      longer.toList = List.replicate n 'a' ++ text.toList := by
  obtain ⟨value, hvalue⟩ := h
  obtain ⟨hvisible, htext⟩ := HeaderValue.toStr_eq_some.mp hvalue
  have hall : (List.replicate n (97 : UInt8) ++ value.bytes).all isVisibleAscii = true := by
    rw [List.all_append, hvisible, Bool.and_true, List.all_eq_true]
    intro b hb
    rw [List.eq_of_mem_replicate hb]
    rfl
  refine ⟨⟨List.replicate n 97 ++ value.bytes⟩, String.ofList (List.replicate n 'a' ++ text.toList),
    HeaderValue.toStr_eq_some.mpr ⟨hall, ?_⟩, String.toList_ofList⟩
  rw [String.toList_ofList, List.map_append, List.map_replicate, htext]
  rfl

/-- No list of texts has every text that ends with a given one. -/
theorem IsHeaderText.exists_new {text : String} (h : IsHeaderText text) (texts : List String) :
    ∃ value longer, HeaderValue.toStr value = some longer ∧ text.toList <:+ longer.toList ∧
      longer ∉ texts := by
  let longest := (texts.map fun text ↦ text.toList.length).sum
  obtain ⟨value, longer, hvalue, hlonger⟩ := h.lengthen (longest + 1)
  refine ⟨value, longer, hvalue, hlonger ▸ List.suffix_append _ _, fun hmem ↦ ?_⟩
  have hle : longer.toList.length ≤ longest :=
    List.single_le_sum (fun _ _ ↦ Nat.zero_le _) _ (List.mem_map_of_mem hmem)
  have hlen := congrArg List.length hlonger
  rw [List.length_append, List.length_replicate] at hlen
  omega

/-! ## Strings -/

/-- `str::ends_with`. -/
def endsWith (s suffix : String) : Bool := suffix.toList.isSuffixOf s.toList

theorem endsWith_iff {s suffix : String} :
    endsWith s suffix = true ↔ suffix.toList <:+ s.toList := by
  simp [endsWith]

/-- `str::contains`. -/
def contains (s part : String) : Bool := s.toList.tails.any part.toList.isPrefixOf

/-- `str::strip_prefix`. -/
def stripPrefix (lead s : String) : Option String :=
  if lead.toList.isPrefixOf s.toList then some (String.ofList (s.toList.drop lead.toList.length))
  else none

/-- The Unicode white space that `str::trim` takes off. -/
def isWhiteSpace (c : Char) : Bool :=
  let n := c.toNat
  (9 ≤ n && n ≤ 13) || n == 0x20 || n == 0x85 || n == 0xa0 || n == 0x1680 ||
    (0x2000 ≤ n && n ≤ 0x200a) || n == 0x2028 || n == 0x2029 || n == 0x202f || n == 0x205f ||
    n == 0x3000

def trim (s : String) : String :=
  String.ofList (((s.toList.dropWhile isWhiteSpace).reverse.dropWhile isWhiteSpace).reverse)

theorem trim_of_all {s : String} (h : ∀ c ∈ s.toList, isWhiteSpace c = false) : trim s = s := by
  have hdrop : ∀ cs : List Char, (∀ c ∈ cs, isWhiteSpace c = false) →
      cs.dropWhile isWhiteSpace = cs := by
    intro cs hcs
    cases cs with
    | nil => rfl
    | cons c cs => exact List.dropWhile_cons_of_neg (by simp [hcs c List.mem_cons_self])
  unfold trim
  rw [hdrop _ h, hdrop _ fun c hc ↦ h c (List.mem_reverse.mp hc), List.reverse_reverse,
    String.ofList_toList]

def toAsciiLowercase (s : String) : String := String.ofList (s.toList.map Char.toLower)

/-- `str::rsplit_once`: the parts before and after the last `sep`. -/
def rsplitOnce (sep : Char) (s : String) : Option (String × String) :=
  let after := s.toList.reverse.takeWhile (· ≠ sep)
  match s.toList.reverse.drop after.length with
  | [] => none
  | _ :: before => some (String.ofList before.reverse, String.ofList after.reverse)

/-- `str::parse::<u16>`: digits with at most one `+` before them. -/
def parseU16 (s : String) : Option UInt16 :=
  let ds := match s.toList with
    | '+' :: ds => ds
    | ds => ds
  if ds ≠ [] ∧ ds.all Char.isDigit ∧ Nat.ofDigitChars 10 ds 0 < 65536 then
    some (UInt16.ofNat (Nat.ofDigitChars 10 ds 0))
  else none

example : rsplitOnce ':' "a:b:80" = some ("a:b", "80") := by decide
example : parseU16 "+0080" = some 80 := by decide
example : trim " Host.Example\t" = "Host.Example" := by decide

end LabStreamGate
