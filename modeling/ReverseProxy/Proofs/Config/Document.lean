import Mathlib.Logic.Relation
import Mathlib.Tactic.FinCases
import ReverseProxy.Config.Document
import ReverseProxy.Data.KeyPath
import ReverseProxy.Proofs.Duration.Human

/-!
# Settings written and read

What is written for settings gives the settings back, also after changes that say the same: unknown
keys are added, keys change their places, and keys are deleted whose value is the default. A `Form`
says what a record looks like as data, and `Form.Edited` is one change. A change of a section is one
of the changes of the whole, so that the sections are forms, too.
-/

namespace ReverseProxy

open Data (Reading)
open Relation (ReflTransGen)

/-- How values of a type are written as tables. -/
structure Form (α : Type) where
  keys : List String
  entries : α → List (String × Data)
  defaults : α
  /-- What may be changed about the value of a key. -/
  Inside : String → Data → Data → Prop

namespace Form

variable {α : Type}

/-- A change of a table that says the same. -/
inductive Edited (F : Form α) : Data → Data → Prop
  | permute {es fs} (h : es.Perm fs) : Edited F (.table es) (.table fs)
  | add {es} (key : String) (v : Data) (h : key ∉ F.keys) :
      Edited F (.table es) (.table ((key, v) :: es))
  /-- The value of the entry is that of the defaults, or comes of it by changes. -/
  | delete {key v w es} (hv : (key, v) ∈ F.entries F.defaults)
      (hw : ReflTransGen (F.Inside key) v w) : Edited F (.table ((key, w) :: es)) (.table es)
  | inside {key v w es} (h : F.Inside key v w) :
      Edited F (.table ((key, v) :: es)) (.table ((key, w) :: es))

/-- What a reader of single fields does with a form: each field goes to its place. `take key s t` is
`t` with the field of the key as in `s`. -/
structure ReadBy (F : Form α) (readField : α → String → Data → Option α)
    (take : String → α → α → α) : Prop where
  take_self : ∀ k ∈ F.keys, ∀ s, take k s s = s
  take_take : ∀ k ∈ F.keys, ∀ s t, take k s (take k s t) = take k s t
  take_comm : ∀ k ∈ F.keys, ∀ l ∈ F.keys, ∀ s t, take k s (take l s t) = take l s (take k s t)
  take_unknown : ∀ {k}, k ∉ F.keys → ∀ s t, take k s t = t
  eq_of_take : ∀ {s t}, (∀ k ∈ F.keys, take k s t = t) → t = s
  keys_eq : ∀ s, (F.entries s).map Prod.fst = F.keys
  read_unknown : ∀ {k}, k ∉ F.keys → ∀ t v, readField t k v = some t
  /-- What is written for a field is read, however its value is changed. -/
  read_own : ∀ {s k v w}, (k, v) ∈ F.entries s → ReflTransGen (F.Inside k) v w →
    ∀ t, readField t k w = some (take k s t)

/-! ## Tables that tell a record -/

section Tells

variable {F : Form α} {readField : α → String → Data → Option α} {take : String → α → α → α}

/-- The value of the key stands for the field of `s`, also when it is changed. -/
def Means (F : Form α) (readField : α → String → Data → Option α) (take : String → α → α → α)
    (s : α) (k : String) (v : Data) : Prop :=
  ∀ w, ReflTransGen (F.Inside k) v w → ∀ t, readField t k w = some (take k s t)

/-- Every entry means what it means in `s`, and what has no entry is in `s` as in the defaults. -/
structure Tells (F : Form α) (readField : α → String → Data → Option α)
    (take : String → α → α → α) (s : α) (es : List (String × Data)) : Prop where
  means : ∀ e ∈ es, Means F readField take s e.1 e.2
  missing : ∀ k ∈ F.keys, k ∈ es.map Prod.fst ∨ take k s F.defaults = F.defaults

theorem ReadBy.tells (hF : F.ReadBy readField take) (s : α) :
    F.Tells readField take s (F.entries s) where
  means := fun _ he _ hw => hF.read_own he hw
  missing := fun _ hk => .inl (hF.keys_eq s ▸ hk)

/-- Reading goes from the defaults to the record, one field after the other. -/
theorem ReadBy.readRecord_eq (hF : F.ReadBy readField take) {s d : α}
    {es : List (String × Data)} (hmeans : ∀ e ∈ es, Means F readField take s e.1 e.2)
    (hd : ∀ k ∈ F.keys, k ∈ es.map Prod.fst ∨ take k s d = d) :
    readRecord readField d es = some s := by
  induction es generalizing d with
  | nil =>
      have htake : ∀ k ∈ F.keys, take k s d = d := fun k hk => by simpa using hd k hk
      rw [readRecord, hF.eq_of_take htake]
  | cons e es ih =>
      obtain ⟨he, hes⟩ := List.forall_mem_cons.mp hmeans
      have hread : readField d e.1 e.2 = some (take e.1 s d) := he _ .refl d
      simp only [readRecord, hread]
      refine ih hes fun k hk => ?_
      by_cases hke : k = e.1
      · subst hke
        exact .inr (hF.take_take e.1 hk s d)
      · rcases hd k hk with hmem | htake
        · exact .inl (by simpa [hke] using hmem)
        · refine .inr ?_
          by_cases hknown : e.1 ∈ F.keys
          · rw [hF.take_comm k hk e.1 hknown, htake]
          · rw [hF.take_unknown hknown, htake]

/-- A change of a table leaves what it tells. -/
theorem Edited.tells (hF : F.ReadBy readField take) {s : α} {es : List (String × Data)} {v : Data}
    (h : F.Edited (.table es) v) (hes : F.Tells readField take s es) :
    ∃ fs, v = .table fs ∧ F.Tells readField take s fs := by
  cases h with
  | permute h =>
      refine ⟨_, rfl, fun e he => hes.means e (h.mem_iff.mpr he), fun k hk => ?_⟩
      exact (hes.missing k hk).imp_left (h.map Prod.fst).mem_iff.mp
  | add key v hkey =>
      refine ⟨_, rfl, ?_, fun k hk => (hes.missing k hk).imp_left (List.mem_cons_of_mem _)⟩
      refine List.forall_mem_cons.mpr ⟨fun w _ t => ?_, hes.means⟩
      rw [hF.read_unknown hkey, hF.take_unknown hkey]
  | @delete key v w fs hv hw =>
      obtain ⟨hkey, hfs⟩ := List.forall_mem_cons.mp hes.means
      refine ⟨_, rfl, hfs, fun k hk => ?_⟩
      rcases hes.missing k hk with hmem | htake
      · rcases List.mem_cons.mp hmem with rfl | hmem
        · -- the value is read as the field of the record and as the field of the defaults
          have hread := hkey w .refl F.defaults
          rw [hF.read_own hv hw, hF.take_self _ hk] at hread
          exact .inr (Option.some.inj hread).symm
        · exact .inl hmem
      · exact .inr htake
  | inside h =>
      obtain ⟨hkey, hfs⟩ := List.forall_mem_cons.mp hes.means
      refine ⟨_, rfl, ?_, hes.missing⟩
      exact List.forall_mem_cons.mpr ⟨fun w hw => hkey w (.head h hw), hfs⟩

/-- Whatever changes are made to what is written for a record, the record is read. -/
theorem ReadBy.readRecord_edited (hF : F.ReadBy readField take) {s : α} {v : Data}
    (h : ReflTransGen F.Edited (.table (F.entries s)) v) :
    ∃ es, v = .table es ∧ readRecord readField F.defaults es = some s := by
  have htells : ∃ es, v = .table es ∧ F.Tells readField take s es := by
    induction h with
    | refl => exact ⟨_, rfl, hF.tells s⟩
    | tail _ h ih =>
        obtain ⟨es, rfl, hes⟩ := ih
        exact h.tells hF hes
  obtain ⟨es, rfl, hes⟩ := htells
  exact ⟨es, rfl, hF.readRecord_eq hes.means hes.missing⟩

end Tells

end Form

/-! ## Values -/

/-- The reading of values gives back what is written. -/
structure Data.Reading.Faithful (r : Reading) : Prop where
  bool : ∀ b, r.bool (.bool b) = some b
  natural : ∀ n : Nat, n < wordLimit → r.natural (.int n) = some n
  text : ∀ s, r.text (.string s) = some s
  choice : ∀ s, r.choice (.string s) = some s

theorem Data.faithful_exact : Data.exact.Faithful where
  bool _ := rfl
  natural n hn := by simpa [Data.exact] using Int.ofNat_lt.mpr hn
  text _ := rfl
  choice _ := rfl

theorem Data.faithful_lenient : Data.lenient.Faithful where
  bool _ := rfl
  natural n hn := by
    simpa [Data.lenient, Data.lenientNatural] using Int.ofNat_lt.mpr hn
  text _ := rfl
  choice _ := rfl

section Values

variable {r : Reading} (hr : r.Faithful)
include hr

theorem readDuration_format (d : Duration) :
    readDuration r (.string (Duration.Human.format d)) = some d := by
  simp [readDuration, hr.text, Duration.Human.parseTrimmed_format, Except.toOption]

theorem readPath?_pathToData (p : Option FilePath) :
    readPath? r (Settings.pathToData p) = some p := by
  cases p with
  | none => rfl
  | some p => simp [Settings.pathToData, readPath?, hr.text]

theorem natural_toNat64 (n : UInt64) : r.natural (.int n.toNat) = some n.toNat :=
  hr.natural _ n.toNat_lt

theorem natural_toNat16 (n : UInt16) : r.natural (.int n.toNat) = some n.toNat :=
  hr.natural _ (n.toNat_lt.trans (by decide))

end Values

/-- A value that may not be changed inside. -/
theorem eq_of_unchanged {v w : Data} (h : ReflTransGen (fun _ _ : Data => False) v w) : w = v := by
  induction h with
  | refl => rfl
  | tail _ h _ => contradiction

/-! ## The forms of settings -/

variable {r : Reading}

namespace Strategy

def form (d : Strategy) : Form Strategy where
  keys := ["type"]
  entries s := s.toData.entries
  defaults := d
  Inside _ _ _ := False

def take (key : String) (s t : Strategy) : Strategy := if key = "type" then s else t

theorem readBy (hr : r.Faithful) (d : Strategy) : (form d).ReadBy
    (fun s key v => if key = "type" then (r.choice v).bind ofName? else some s) take where
  take_self k _ s := by simp [take]
  take_take k hk s t := by
    obtain rfl : k = "type" := by simpa [form] using hk
    rfl
  take_comm k hk l hl s t := by
    obtain rfl : k = "type" := by simpa [form] using hk
    obtain rfl : l = "type" := by simpa [form] using hl
    rfl
  take_unknown {k} hk s t := if_neg (by simpa [form] using hk)
  eq_of_take h := (h "type" (.head _)).symm
  keys_eq s := rfl
  read_unknown {k} hk t v := if_neg (by simpa [form] using hk)
  read_own {s k v w} hv hw t := by
    obtain ⟨rfl, rfl⟩ : k = "type" ∧ v = .string s.name := by
      simpa [form, toData, Data.entries] using hv
    rw [eq_of_unchanged hw]
    simp [hr.choice, ofName?_name, take]

theorem ofData?_edited (hr : r.Faithful) {s : Strategy} {v : Data}
    (h : ReflTransGen (form .roundRobin).Edited s.toData v) : ofData? r v = some s := by
  obtain ⟨es, rfl, hread⟩ := (readBy hr .roundRobin).readRecord_edited h
  exact hread

end Strategy

namespace BackendSettings

def form (d : BackendSettings) : Form BackendSettings where
  keys := keys
  entries s := s.toData.entries
  defaults := d
  Inside _ _ _ := False

def take (key : String) (s t : BackendSettings) : BackendSettings :=
  match key with
  | "dial-timeout" => { t with dialTimeout := s.dialTimeout }
  | "latency-average-seconds" => { t with latencySpan := s.latencySpan }
  | "health-check-timeout" => { t with probeTimeout := s.probeTimeout }
  | "new-host-port" => { t with newHostPort := s.newHostPort }
  | "new-host-health-path" => { t with newHostHealthPath := s.newHostHealthPath }
  | "new-host-health-https" => { t with newHostHealthHttps := s.newHostHealthHttps }
  | "disable-health-check" => { t with unmonitored := s.unmonitored }
  | _ => t

theorem eq_of_take {s t : BackendSettings} (h : ∀ k ∈ keys, take k s t = t) : t = s := by
  cases s
  cases t
  simp_all [keys, take]

theorem readBy (hr : r.Faithful) (d : BackendSettings) : (form d).ReadBy (readField r) take where
  take_self k hk s := by
    fin_cases hk <;> rfl
  take_take k hk s t := by
    fin_cases hk <;> rfl
  take_comm k hk l hl s t := by
    fin_cases hk <;> fin_cases hl <;> rfl
  take_unknown {k} hk s t := by
    change k ∉ keys at hk
    unfold take
    split <;> first | rfl | exact absurd (by decide) hk
  eq_of_take := eq_of_take
  keys_eq s := rfl
  read_unknown {k} hk t v := by
    change k ∉ keys at hk
    unfold readField
    split <;> first | rfl | exact absurd (by decide) hk
  read_own {s k v w} hv hw t := by
    rw [eq_of_unchanged hw]
    simp only [form, toData, Data.entries, List.mem_cons, List.not_mem_nil, or_false,
      Prod.mk.injEq] at hv
    rcases hv with ⟨rfl, rfl⟩ | ⟨rfl, rfl⟩ | ⟨rfl, rfl⟩ | ⟨rfl, rfl⟩ | ⟨rfl, rfl⟩ | ⟨rfl, rfl⟩ |
      ⟨rfl, rfl⟩
    · simp [readField, take, readDuration_format hr]
    · simp [readField, take, natural_toNat64 hr]
    · simp [readField, take, readDuration_format hr]
    · simp [readField, take, natural_toNat16 hr, s.newHostPort.toNat_lt]
    · simp [readField, take, hr.text]
    · simp [readField, take, hr.bool]
    · simp [readField, take, hr.bool]

theorem ofData?_edited (hr : r.Faithful) {s : BackendSettings} {v : Data}
    (h : ReflTransGen (form {}).Edited s.toData v) : ofData? r v = some s := by
  obtain ⟨es, rfl, hread⟩ := (readBy hr {}).readRecord_edited h
  exact hread

end BackendSettings

namespace Settings

/-- The sections are forms of their own, with their part of the defaults. -/
def form (d : Settings) : Form Settings where
  keys := keys
  entries s := s.toData.entries
  defaults := d
  Inside
    | "loadbalancing" => (Strategy.form d.strategy).Edited
    | "backend" => (BackendSettings.form d.backend).Edited
    | _ => fun _ _ => False

def take (key : String) (s t : Settings) : Settings :=
  match key with
  | "bind" => { t with bind := s.bind }
  | "https" => { t with https := s.https }
  | "tls-cert-file" => { t with certificate := s.certificate }
  | "tls-key-file" => { t with privateKey := s.privateKey }
  | "add-x-forwarded-for" => { t with addForwardedFor := s.addForwardedFor }
  | "watch-config" => { t with watchConfig := s.watchConfig }
  | "loadbalancing" => { t with strategy := s.strategy }
  | "inventory-file" => { t with inventoryFile := s.inventoryFile }
  | "backend" => { t with backend := s.backend }
  | "shutdown-timeout" => { t with shutdownTimeout := s.shutdownTimeout }
  | _ => t

theorem eq_of_take {s t : Settings} (h : ∀ k ∈ keys, take k s t = t) : t = s := by
  cases s
  cases t
  simp_all [keys, take]

theorem readBy (hr : r.Faithful) : (form {}).ReadBy (readField r) take where
  take_self k hk s := by
    fin_cases hk <;> rfl
  take_take k hk s t := by
    fin_cases hk <;> rfl
  take_comm k hk l hl s t := by
    fin_cases hk <;> fin_cases hl <;> rfl
  take_unknown {k} hk s t := by
    change k ∉ keys at hk
    unfold take
    split <;> first | rfl | exact absurd (by decide) hk
  eq_of_take := eq_of_take
  keys_eq s := rfl
  read_unknown {k} hk t v := by
    change k ∉ keys at hk
    unfold readField
    split <;> first | rfl | exact absurd (by decide) hk
  read_own {s k v w} hv hw t := by
    simp only [form, toData, Data.entries, List.mem_cons, List.not_mem_nil, or_false,
      Prod.mk.injEq] at hv
    rcases hv with ⟨rfl, rfl⟩ | ⟨rfl, rfl⟩ | ⟨rfl, rfl⟩ | ⟨rfl, rfl⟩ | ⟨rfl, rfl⟩ | ⟨rfl, rfl⟩ |
      ⟨rfl, rfl⟩ | ⟨rfl, rfl⟩ | ⟨rfl, rfl⟩ | ⟨rfl, rfl⟩
    · rw [eq_of_unchanged hw]
      simp [readField, take, hr.text]
    · rw [eq_of_unchanged hw]
      simp [readField, take, hr.bool]
    · rw [eq_of_unchanged hw]
      simp [readField, take, readPath?_pathToData hr]
    · rw [eq_of_unchanged hw]
      simp [readField, take, readPath?_pathToData hr]
    · rw [eq_of_unchanged hw]
      simp [readField, take, hr.bool]
    · rw [eq_of_unchanged hw]
      simp [readField, take, hr.bool]
    · simp [readField, take, Strategy.ofData?_edited hr hw]
    · rw [eq_of_unchanged hw]
      simp [readField, take, hr.text]
    · simp [readField, take, BackendSettings.ofData?_edited hr hw]
    · rw [eq_of_unchanged hw]
      simp [readField, take, readDuration_format hr]

theorem ofData?_edited (hr : r.Faithful) {s : Settings} {v : Data}
    (h : ReflTransGen (form {}).Edited s.toData v) : ofData? r v = some s := by
  obtain ⟨es, rfl, hread⟩ := (readBy hr).readRecord_edited h
  exact hread

/-- What is written for settings is read as these settings, exactly and leniently, whatever unknown
keys are added, however keys are permuted and whichever keys with their default are deleted, in the
sections, too. -/
theorem ofData?_of_edits {s : Settings} {v : Data} (h : ReflTransGen (form {}).Edited s.toData v) :
    ofData? Data.exact v = some s ∧ ofData? Data.lenient v = some s :=
  ⟨ofData?_edited Data.faithful_exact h, ofData?_edited Data.faithful_lenient h⟩

/-- A nanosecond and the longest duration, without some of the defaults, in another order and with
two keys that nobody knows. -/
theorem ofData?_of_edits_extreme :
    let s : Settings :=
      { certificate := some ⟨"schlüssel.pem"⟩
        strategy := .leastConnections
        backend := { latencySpan := 18446744073709551615, probeTimeout := ⟨1, by decide⟩ }
        shutdownTimeout := ⟨Duration.limit - 1, by decide⟩ }
    let v : Data :=
      .table [
        ("colour", .string "red"),
        ("backend", .table [
          ("owner", .nil),
          ("latency-average-seconds", .int 18446744073709551615),
          ("health-check-timeout", .string (Duration.Human.format s.backend.probeTimeout)),
          ("new-host-port", .int 80),
          ("new-host-health-path", .string "/"),
          ("new-host-health-https", .bool false),
          ("disable-health-check", .bool false)]),
        ("shutdown-timeout", .string (Duration.Human.format s.shutdownTimeout)),
        ("inventory-file", .string "inventory.toml"),
        ("loadbalancing", .table [("type", .string "leastconn")]),
        ("watch-config", .bool true),
        ("add-x-forwarded-for", .bool true),
        ("tls-key-file", .nil),
        ("tls-cert-file", .string "schlüssel.pem")]
    ReflTransGen (form {}).Edited s.toData v ∧
      ofData? Data.exact v = some s ∧ ofData? Data.lenient v = some s := by
  intro s v
  have hedits : ReflTransGen (form {}).Edited s.toData v := by
    -- the address and the switch of the server go, and all keys turn around
    refine .head (.delete (.head _) .refl) ?_
    refine .head (.delete (.tail _ (.head _)) .refl) ?_
    refine .head (.permute (List.reverse_perm _).symm) ?_
    refine .head (.permute (.swap _ _ _)) ?_
    -- the first key of the backends goes and another one comes
    refine .head (.inside (.delete (.head _) .refl)) ?_
    refine .head (.inside (.add "owner" .nil (by decide))) ?_
    exact .single (.add "colour" (.string "red") (by decide))
  exact ⟨hedits, ofData?_of_edits hedits⟩

end Settings

end ReverseProxy
