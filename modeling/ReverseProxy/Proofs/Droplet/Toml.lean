import ReverseProxy.Droplet.Toml
import ReverseProxy.Proofs.Toml.Values

/-!
# Droplets written and read

A droplet is written as one line for each of its fields, absent ones left out. Each line is read as
the value it was written for, and the values make up the droplet again.
-/

namespace ReverseProxy.Droplet

open Toml (Line Value)

/-! ## Lines -/

/-- Whether the start of a droplet, if it has one, lies in a year of at most four digits. -/
def HasPrintableStart (d : Droplet) : Prop :=
  ∀ t, d.startedTime = some t → 0 ≤ t.date.year ∧ t.date.year ≤ 9999

def startedLines (started : Option Time.Timestamp) : List Line :=
  started.toList.map fun t => .ofDatetime "started-time" (.universal t.date t.clock)

def lines (d : Droplet) : List Line :=
  [.ofInteger "id" d.id.toInt, .ofString "name" d.name, .ofString "private-ip" d.privateIp] ++
    (d.publicIp.toList.map (Line.ofString "public-ip") ++
      ([.ofString "server-host" d.serverHost, .ofString "health-url" d.healthUrl] ++
        startedLines d.startedTime))

def textOf (ls : List Line) : String := String.ofList (ls.flatMap (·.print))

theorem textOf_cons (l : Line) (ls : List Line) : textOf (l :: ls) = textOf [l] ++ textOf ls := by
  simp [textOf]

theorem textOf_append (ls ms : List Line) : textOf (ls ++ ms) = textOf ls ++ textOf ms := by
  simp [textOf]

theorem textOf_ofString (key value : String) :
    textOf [.ofString key value] = stringLine key value := by
  apply String.toList_injective
  simp [textOf, Line.print, Line.ofString, stringLine, Toml.quote]

theorem textOf_ofInteger (key : String) (n : Int) :
    textOf [.ofInteger key n] = key ++ " = " ++ Text.signedDecimal n ++ "\n" := by
  apply String.toList_injective
  simp [textOf, Line.print, Line.ofInteger]

theorem textOf_ofDatetime (key : String) (dt : Toml.Datetime) :
    textOf [.ofDatetime key dt] = key ++ " = " ++ String.ofList dt.print ++ "\n" := by
  apply String.toList_injective
  simp [textOf, Line.print, Line.ofDatetime]

theorem datetime?_eq_some {t : Time.Timestamp} (h : 0 ≤ t.date.year ∧ t.date.year ≤ 9999) :
    datetime? t = some (.universal t.date t.clock) := by
  rw [datetime?, if_pos (by simpa using h)]
  rfl

theorem textOf_lines (d : Droplet) :
    textOf d.lines = "id = " ++ Text.signedDecimal d.id.toInt ++ "\n" ++
      stringLine "name" d.name ++
      stringLine "private-ip" d.privateIp ++
      (match d.publicIp with
        | some ip => stringLine "public-ip" ip
        | none => "") ++
      stringLine "server-host" d.serverHost ++
      stringLine "health-url" d.healthUrl ++
      textOf (startedLines d.startedTime) := by
  have hip : textOf (d.publicIp.toList.map (Line.ofString "public-ip")) =
      (match d.publicIp with
        | some ip => stringLine "public-ip" ip
        | none => "") := by
    cases d.publicIp with
    | none => rfl
    | some ip => exact textOf_ofString "public-ip" ip
  have hid : textOf [.ofInteger "id" d.id.toInt] =
      "id = " ++ Text.signedDecimal d.id.toInt ++ "\n" :=
    textOf_ofInteger "id" _
  simp only [lines, textOf_append, textOf_cons _ [_, _], textOf_cons _ [_], textOf_ofString, hid,
    hip, String.append_assoc]

/-- A droplet is written as the text of its lines. -/
theorem print?_eq_some {d : Droplet} (h : d.HasPrintableStart) :
    d.print? = some (textOf d.lines) := by
  rw [textOf_lines, print?]
  cases hs : d.startedTime with
  | none => rfl
  | some t =>
      have htext : "started-time = " ++
          String.ofList (Toml.Datetime.universal t.date t.clock).print ++ "\n" =
            textOf (startedLines (some t)) :=
        (textOf_ofDatetime "started-time" _).symm
      simp only [datetime?_eq_some (h t hs), Option.map_some, htext]
      rfl

theorem fitsSigned_toInt (n : Int64) : fitsSigned n.toInt = true := by
  have hlow := n.le_toInt
  have hhigh := n.toInt_lt
  simp only [fitsSigned, signedLimit, Bool.and_eq_true, decide_eq_true_eq]
  omega

theorem date_isValid (t : Time.Timestamp) : t.date.isValid = true := Time.Date.isValid_ofDays _

theorem readable_lines {d : Droplet} (h : d.HasPrintableStart) : ∀ l ∈ d.lines, l.Readable := by
  intro l hl
  simp only [lines, List.mem_append] at hl
  rcases hl with hl | hl | hl | hl
  · simp only [List.mem_cons, List.not_mem_nil, or_false] at hl
    rcases hl with rfl | rfl | rfl
    · exact Line.readable_ofInteger (by decide) (fitsSigned_toInt d.id)
    · exact Line.readable_ofString (by decide) d.name
    · exact Line.readable_ofString (by decide) d.privateIp
  · obtain ⟨ip, -, rfl⟩ := List.mem_map.mp hl
    exact Line.readable_ofString (by decide) ip
  · simp only [List.mem_cons, List.not_mem_nil, or_false] at hl
    rcases hl with rfl | rfl
    · exact Line.readable_ofString (by decide) d.serverHost
    · exact Line.readable_ofString (by decide) d.healthUrl
  · obtain ⟨t, ht, rfl⟩ := List.mem_map.mp hl
    exact Line.readable_ofDatetime (by decide) (date_isValid t)
      (h t (Option.mem_toList.mp ht)) t.clock_isValid

/-- The entries of a droplet's table. -/
def fields (d : Droplet) : List (String × Value) := d.lines.map fun l => (l.key, l.value)

/-- The droplet that is read off what is written, a leap second within a minute carried over. -/
def carryStart (d : Droplet) : Droplet := { d with startedTime := d.startedTime.map (·.carry) }

end ReverseProxy.Droplet
