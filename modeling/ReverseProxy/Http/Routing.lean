import ReverseProxy.Http.Message

/-!
# Routing and framing

Every path that starts with a slash is served; other targets are not found. On the way out an
answer gets the length of its body if it names none, and loses its body where the method allows
none.
-/

namespace ReverseProxy.Http

def Uri.isServed (u : Uri) : Bool := u.pathOrRoot.toList.head? = some '/'

def lengthValue? (n : Nat) : Option FieldValue :=
  FieldValue.ofBytes? ((Text.digits n).map fun c => c.toNat.toUInt8)

namespace Response

/-- Names the length of the body unless a length is named. -/
def withLength (r : Response) : Response :=
  if r.headers.contains .contentLength then r
  else match lengthValue? r.body.length with
    | some v => { r with headers := r.headers.append .contentLength v }
    | none => r

def withoutBody (r : Response) : Response := { r with body := [] }

def framed (m : Method) (r : Response) : Response :=
  if m = .connect && r.status.isSuccess then r.withoutBody
  else if m = .head then r.withLength.withoutBody
  else r.withLength

/-- The answer for targets that are not served. -/
def notFound : Response := ⟨.notFound, .empty, []⟩

end Response

end ReverseProxy.Http
