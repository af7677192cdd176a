import ReverseProxy.Text.Blank

/-!
# Header fields

Names are tokens in lower case, values are bytes without controls. Headers keep every field in the
order it was added; the fields of one name can be read, replaced and removed together.
-/

namespace ReverseProxy.Http

def isTokenChar (c : Char) : Bool :=
  c.isAlphanum ||
    c ∈ ['!', '#', '$', '%', '&', '\'', '*', '+', '-', '.', '^', '_', '\x60', '|', '~']

/-- Characters of a field name: those of a token, letters in lower case. -/
def isNameChar (c : Char) : Bool := isTokenChar c && !c.isUpper

/-- The name of a header field: a non-empty token in lower case. -/
structure FieldName where
  chars : List Char
  nonempty : chars ≠ []
  allowed : chars.all isNameChar = true
deriving DecidableEq

namespace FieldName

def ofChars? (cs : List Char) : Option FieldName :=
  let lower := cs.map Char.toLower
  if h : lower ≠ [] ∧ cs.all isTokenChar && lower.all isNameChar then
    some ⟨lower, h.1, by simp only [Bool.and_eq_true] at h; exact h.2.2⟩
  else none

def toText (n : FieldName) : String := String.ofList n.chars

def connection : FieldName := ⟨"connection".toList, by decide, by decide⟩
def upgrade : FieldName := ⟨"upgrade".toList, by decide, by decide⟩
def host : FieldName := ⟨"host".toList, by decide, by decide⟩
def contentLength : FieldName := ⟨"content-length".toList, by decide, by decide⟩
def contentType : FieldName := ⟨"content-type".toList, by decide, by decide⟩
def forwardedFor : FieldName := ⟨"x-forwarded-for".toList, by decide, by decide⟩
def keepAlive : FieldName := ⟨"keep-alive".toList, by decide, by decide⟩
def proxyConnection : FieldName := ⟨"proxy-connection".toList, by decide, by decide⟩
def proxyAuthenticate : FieldName := ⟨"proxy-authenticate".toList, by decide, by decide⟩
def proxyAuthorization : FieldName := ⟨"proxy-authorization".toList, by decide, by decide⟩
def te : FieldName := ⟨"te".toList, by decide, by decide⟩
def trailer : FieldName := ⟨"trailer".toList, by decide, by decide⟩
def transferEncoding : FieldName := ⟨"transfer-encoding".toList, by decide, by decide⟩
def userAgent : FieldName := ⟨"user-agent".toList, by decide, by decide⟩

end FieldName

/-- Bytes of a field value: all but controls, and tabs. -/
def isValueByte (b : UInt8) : Bool := (32 ≤ b && b ≠ 127) || b = 9

structure FieldValue where
  bytes : List UInt8
  allowed : bytes.all isValueByte = true
deriving DecidableEq

namespace FieldValue

def ofBytes? (bs : List UInt8) : Option FieldValue :=
  if h : bs.all isValueByte = true then some ⟨bs, h⟩ else none

/-- The value as text, if it is made only of visible ASCII characters, spaces and tabs. -/
def ascii? (v : FieldValue) : Option (List Char) :=
  if v.bytes.all (· < 127) then some (v.bytes.map fun b => Char.ofNat b.toNat) else none

def join (v w : FieldValue) : FieldValue where
  bytes := v.bytes ++ 44 :: 32 :: w.bytes
  allowed := by
    have hv := v.allowed
    have hw := w.allowed
    simp only [List.all_append, List.all_cons, hv, hw]
    decide

end FieldValue

/-- The header fields of a message, in the order they were added. -/
structure Headers where
  fields : List (FieldName × FieldValue)
deriving DecidableEq

namespace Headers

def empty : Headers := ⟨[]⟩

def getAll (h : Headers) (n : FieldName) : List FieldValue :=
  (h.fields.filter (·.1 = n)).map (·.2)

def get? (h : Headers) (n : FieldName) : Option FieldValue := (h.getAll n).head?

def contains (h : Headers) (n : FieldName) : Bool := h.fields.any (·.1 = n)

def append (h : Headers) (n : FieldName) (v : FieldValue) : Headers := ⟨h.fields ++ [(n, v)]⟩

def remove (h : Headers) (n : FieldName) : Headers := ⟨h.fields.filter (·.1 ≠ n)⟩

/-- Makes a value the only one of its name. -/
def set (h : Headers) (n : FieldName) (v : FieldValue) : Headers := (h.remove n).append n v

/-- The elements of the comma-separated lists in the values of a name, without blanks around them.
Values that hold anything but visible ASCII, spaces and tabs are passed over. -/
def listElements (h : Headers) (n : FieldName) : List (List Char) :=
  (h.getAll n).flatMap fun v =>
    match v.ascii? with
    | some cs => (Text.splitAtChar ',' cs).map Text.trim
    | none => []

theorem getAll_append (h : Headers) (n m : FieldName) (v : FieldValue) :
    (h.append n v).getAll m = h.getAll m ++ if n = m then [v] else [] := by
  by_cases hn : n = m <;> simp [append, getAll, hn]

theorem getAll_remove (h : Headers) (n m : FieldName) :
    (h.remove n).getAll m = if n = m then [] else h.getAll m := by
  by_cases hn : n = m
  · subst hn
    simp [remove, getAll, List.filter_filter]
  · simp only [remove, getAll, List.filter_filter, hn, ite_false]
    congr 1
    apply List.filter_congr
    intro f _
    by_cases hf : f.1 = m
    · subst hf; simp [Ne.symm hn]
    · simp [hf]

theorem getAll_set (h : Headers) (n m : FieldName) (v : FieldValue) :
    (h.set n v).getAll m = if n = m then [v] else h.getAll m := by
  by_cases hn : n = m <;> simp [set, getAll_append, getAll_remove, hn]

end Headers

end ReverseProxy.Http
