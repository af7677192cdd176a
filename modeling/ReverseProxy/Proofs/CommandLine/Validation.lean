import Mathlib.Data.List.Basic
import ReverseProxy.CommandLine.Commands
import ReverseProxy.Proofs.Config.Validation
import ReverseProxy.Proofs.Reload.Steps

/-!
# What validation tells about a server

Validation accepts what the server loads, provided that the file stands under the very path it is
given and both find the same hosts, and then shows the settings that the server would run with:
`validate_agrees`. A summary is one text, in which the address and the path of the inventory stand as
they are. Six settings can be read off it all the same (`shown_of_summary`): the address of valid
settings cannot hold the bullet that ends it, and only words without spaces follow the path.
-/

namespace ReverseProxy

/-- The settings that a summary shows. -/
structure Settings.Shown where
  bind : String
  https : Bool
  strategy : Strategy
  inventoryFile : FilePath
  unmonitored : Bool
  watchConfig : Bool
deriving DecidableEq

def Settings.shown (s : Settings) : Settings.Shown :=
  ⟨s.bind, s.https, s.strategy, s.inventoryFile, s.backend.unmonitored, s.watchConfig⟩

theorem Settings.load_mono {t : FileTree} {p : FilePath} {names names' : Net.Names} {s : Settings}
    (hfinds : ∀ host, names.Finds host → names'.Finds host)
    (h : Settings.load t p names = .ok s) : Settings.load t p names' = .ok s := by
  obtain ⟨hunchecked, hvalid⟩ := load_eq_ok_iff.mp h
  exact load_eq_ok_iff.mpr ⟨hunchecked, validate_mono hfinds hvalid⟩

namespace CommandLine

/-! ## Reading a summary -/

section Words

variable {α : Type} {x : α} {as bs cs ds : List α}

/-- What comes before the first of two equal separators. -/
theorem append_cons_inj_of_first (ha : x ∉ as) (hb : x ∉ bs) (h : as ++ x :: cs = bs ++ x :: ds) :
    as = bs ∧ cs = ds := by
  induction as generalizing bs with
  | nil =>
      cases bs with
      | nil => exact ⟨rfl, (List.cons.inj h).2⟩
      | cons b bs => exact absurd (List.cons.inj h).1 fun he => hb (he ▸ List.mem_cons_self)
  | cons a as ih =>
      cases bs with
      | nil => exact absurd (List.cons.inj h).1 fun he => ha (he ▸ List.mem_cons_self)
      | cons b bs =>
          obtain ⟨rfl, hrest⟩ := List.cons.inj h
          obtain ⟨rfl, rfl⟩ := ih (List.not_mem_of_not_mem_cons ha) (List.not_mem_of_not_mem_cons hb)
            hrest
          exact ⟨rfl, rfl⟩

/-- What comes after the last of two equal separators. -/
theorem append_cons_inj_of_last (hc : x ∉ cs) (hd : x ∉ ds) (h : as ++ x :: cs = bs ++ x :: ds) :
    as = bs ∧ cs = ds := by
  have hreverse := congrArg List.reverse h
  simp only [List.reverse_append, List.reverse_cons, List.append_assoc, List.singleton_append]
    at hreverse
  obtain ⟨hcs, has⟩ := append_cons_inj_of_first (mt List.mem_reverse.mp hc) (mt List.mem_reverse.mp hd)
    hreverse
  exact ⟨List.reverse_injective has, List.reverse_injective hcs⟩

end Words

theorem flagText_inj {b b' : Bool} (h : (flagText b).toList = (flagText b').toList) : b = b' := by
  cases b <;> cases b' <;> first | rfl | exact absurd h (by decide)

theorem name_inj {s s' : Strategy} (h : s.name.toList = s'.name.toList) : s = s' := by
  have hback := congrArg Strategy.ofName? (String.toList_inj.mp h)
  simpa only [Strategy.ofName?_name, Option.some.injEq] using hback

/-- A summary as one text, cut where it can be read apart. -/
theorem toList_summary (s : Settings) : (summary s).toList =
    ("📋 Configuration Summary:".toList ++ '\n' :: "   • Bind Address: ".toList) ++
      ((s.bind.toList ++ '\n' :: "   ".toList) ++ '•' :: (" HTTPS: ".toList ++
      ((flagText s.https).toList ++ '\n' :: ("   • Load Balancer: ".toList ++
      (s.strategy.name.toList ++ '\n' :: ("   • Inventory: ".toList ++
      ((((s.inventoryFile.text.toList ++ '\n' :: "   • Health Checks:".toList) ++
        ' ' :: (flagText (!s.backend.unmonitored)).toList) ++ '\n' :: "   • Watch Config:".toList) ++
        ' ' :: ((flagText s.watchConfig).toList ++ ['\n'])))))))) := by
  have hend : "\n".toList = ['\n'] := rfl
  have hhttps : "   • HTTPS: ".toList = "   ".toList ++ '•' :: " HTTPS: ".toList := rfl
  have hhealth : "   • Health Checks: ".toList = "   • Health Checks:".toList ++ [' '] := rfl
  have hwatch : "   • Watch Config: ".toList = "   • Watch Config:".toList ++ [' '] := rfl
  simp only [summary, lines, String.join, List.map, List.foldl, String.empty_append,
    String.toList_append, hend, hhttps, hhealth, hwatch, List.append_assoc, List.cons_append,
    List.nil_append]

theorem not_mem_flagText {c : Char} (h : c ∉ "truefalse".toList) (b : Bool) :
    c ∉ (flagText b).toList := by
  cases b with
  | true => exact fun hc => h (List.mem_append_left "false".toList hc)
  | false => exact fun hc => h (List.mem_append_right "true".toList hc)

theorem newline_not_mem_name (s : Strategy) : '\n' ∉ s.name.toList := by cases s <;> decide

theorem bullet_not_mem_bind {s : Settings} {names : Net.Names} (hnames : names.Ascii)
    (h : s.validate names = .ok ()) : '•' ∉ s.bind.toList ++ '\n' :: "   ".toList := by
  obtain ⟨⟨a, ha⟩, -⟩ := Settings.validate_eq_ok_iff.mp h
  intro hbullet
  rcases List.mem_append.mp hbullet with hbullet | hbullet
  · rcases Net.listenAddress_chars hnames ha _ hbullet with hascii | hblank
    · exact absurd hascii (by unfold Net.IsAscii; decide)
    · exact absurd hblank (by decide)
  · exact absurd hbullet (by decide)

/-- Valid settings with the same summary agree in all that it shows. -/
theorem shown_of_summary {s s' : Settings} {names : Net.Names} (hnames : names.Ascii)
    (hs : s.validate names = .ok ()) (hs' : s'.validate names = .ok ())
    (h : summary s = summary s') : s.shown = s'.shown := by
  have hlists := congrArg String.toList h
  rw [toList_summary, toList_summary] at hlists
  obtain ⟨hbind, hlists⟩ := append_cons_inj_of_first (bullet_not_mem_bind hnames hs)
    (bullet_not_mem_bind hnames hs') (List.append_cancel_left hlists)
  obtain ⟨hhttps, hlists⟩ := append_cons_inj_of_first (not_mem_flagText (by decide) _)
    (not_mem_flagText (by decide) _) (List.append_cancel_left hlists)
  obtain ⟨hname, hlists⟩ := append_cons_inj_of_first (newline_not_mem_name _)
    (newline_not_mem_name _) (List.append_cancel_left hlists)
  have hspace : ∀ b, ' ' ∉ (flagText b).toList ++ ['\n'] := by decide
  obtain ⟨hlists, hwatch⟩ := append_cons_inj_of_last (hspace _) (hspace _)
    (List.append_cancel_left hlists)
  obtain ⟨hfile, hhealth⟩ := append_cons_inj_of_last (not_mem_flagText (by decide) _)
    (not_mem_flagText (by decide) _) (List.append_cancel_right hlists)
  have hb := String.toList_inj.mp (List.append_cancel_right hbind)
  have hf := String.toList_inj.mp (List.append_cancel_right hfile)
  have hw := flagText_inj (List.append_cancel_right hwatch)
  have hm : s.backend.unmonitored = s'.backend.unmonitored := by
    simpa using flagText_inj hhealth
  have hfile' : s.inventoryFile = s'.inventoryFile := congrArg FilePath.mk hf
  unfold Settings.shown
  rw [hb, flagText_inj hhttps, name_inj hname, hfile', hm, hw]

/-! ## Validation and loading -/

variable {t : FileTree} {path : String} {names names' : Net.Names}

/-- Where there is something under the path, validation ends as loading does. -/
theorem validate_of_exists (h : t.exists? ⟨path⟩ = true) :
    (∃ s, Settings.load t ⟨path⟩ names = .ok s ∧ validate t path names =
      { output := "🔍 Validating configuration file: " ++ path ++ "\n" ++
          "✅ Configuration parsing: OK\n" ++ "✅ Configuration validation: OK\n\n" ++ summary s
        tree := t }) ∨
    (∃ e, Settings.load t ⟨path⟩ names = .error e) ∧ (validate t path names).code = 1 := by
  unfold validate
  simp only [h, Bool.not_true]
  cases hu : Settings.loadUnchecked t ⟨path⟩ with
  | error e => exact .inr ⟨⟨e, by simp [Settings.load, hu, Bind.bind, Except.bind]⟩, by simp⟩
  | ok s =>
      cases hv : s.validate names with
      | error e =>
          have hload : Settings.load t ⟨path⟩ names = .error (.invalid e) := by
            simp [Settings.load, hu, hv, Bind.bind, Except.bind]
          exact .inr ⟨⟨_, hload⟩, by simp [hv]⟩
      | ok u =>
          refine .inl ⟨s, Settings.load_eq_ok_iff.mpr ⟨hu, hv⟩, ?_⟩
          simp [hv]

theorem code_validate_of_not_exists (h : t.exists? ⟨path⟩ = false) :
    (validate t path names).code = 1 := by
  unfold validate
  simp [h]

/-- Validation succeeds for the files that stand under the very path and can be loaded, as long as it
finds the same hosts. What it writes then shows the settings that are loaded: where names of hosts are
in ASCII, no other valid settings have that summary, unless they agree in all that is shown. -/
theorem validate_agrees (t : FileTree) (path : String) {names names' : Net.Names}
    (hsame : ∀ host, names.Finds host ↔ names'.Finds host) :
    ((validate t path names').code = 0 ↔
      t.exists? ⟨path⟩ = true ∧ ∃ s, Settings.load t ⟨path⟩ names = .ok s) ∧
    ∀ s, t.exists? ⟨path⟩ = true → Settings.load t ⟨path⟩ names = .ok s →
      (validate t path names').output = "🔍 Validating configuration file: " ++ path ++ "\n" ++
        "✅ Configuration parsing: OK\n" ++ "✅ Configuration validation: OK\n\n" ++ summary s ∧
      (names.Ascii → ∀ s', s'.validate names = .ok () → summary s' = summary s →
        s'.shown = s.shown) := by
  have hload : ∀ s, Settings.load t ⟨path⟩ names = .ok s ↔
      Settings.load t ⟨path⟩ names' = .ok s :=
    fun s => ⟨Settings.load_mono fun host => (hsame host).mp,
      Settings.load_mono fun host => (hsame host).mpr⟩
  constructor
  · simp only [hload]
    constructor
    · intro hcode
      cases hexists : t.exists? ⟨path⟩ with
      | false => simp [code_validate_of_not_exists hexists] at hcode
      | true =>
          rcases validate_of_exists hexists with ⟨s, hs, -⟩ | ⟨-, hfailed⟩
          · exact ⟨rfl, s, hs⟩
          · omega
    · rintro ⟨hexists, s, hs⟩
      rcases validate_of_exists hexists with ⟨s', -, heq⟩ | ⟨⟨e, he⟩, -⟩
      · rw [heq]
      · cases hs.symm.trans he
  · intro s hexists hs
    have hs' := (hload s).mp hs
    rcases validate_of_exists hexists with ⟨s₁, hs₁, heq⟩ | ⟨⟨e, he⟩, -⟩
    · obtain rfl := Except.ok.inj (hs'.symm.trans hs₁)
      exact ⟨by rw [heq], fun hascii _ hvalid =>
        shown_of_summary hascii hvalid (Settings.validate_of_load hs)⟩
    · cases hs'.symm.trans he

/-- The host to listen on has another address when it is looked up again. -/
theorem validate_agrees_localhost :
    let t := FileTree.ofFiles
      [("conf.toml", "bind = \"localhost:80\"\n[loadbalancing]\ntype = \"roundrobin\"\n")]
    let names : Net.Names := .ofHosts [("localhost", [(.v4 127 0 0 1, 0)])]
    let names' : Net.Names := .ofHosts [("localhost", [(.v4 127 0 1 1, 0), (.v4 127 0 0 1, 0)])]
    let s : Settings := { bind := "localhost:80" }
    (∀ host, names.Finds host ↔ names'.Finds host) ∧ names.Ascii ∧
      t.exists? ⟨"conf.toml"⟩ = true ∧ Settings.load t ⟨"conf.toml"⟩ names = .ok s ∧
      (validate t "conf.toml" names').code = 0 ∧
      ∀ s', s'.validate names = .ok () → summary s' = summary s → s'.shown = s.shown := by
  intro t names names' s
  have hfinds : ∀ host, names.Finds host ↔ host = "localhost" := fun host =>
    Net.Names.finds_ofHosts_singleton
  have hfinds' : ∀ host, names'.Finds host ↔ host = "localhost" := fun host =>
    Net.Names.finds_ofHosts_singleton
  have hsame : ∀ host, names.Finds host ↔ names'.Finds host := fun host =>
    (hfinds host).trans (hfinds' host).symm
  have hascii : names.Ascii := by
    intro host hhost c hc
    rw [(hfinds host).mp hhost] at hc
    have hchars : "localhost".toList.all (·.toNat < 128) = true := by decide
    have hc : c.toNat < 128 := of_decide_eq_true (List.all_eq_true.mp hchars c hc)
    exact hc
  have hexists : t.exists? ⟨"conf.toml"⟩ = true := by decide +kernel
  have hload : Settings.load t ⟨"conf.toml"⟩ names = .ok s := by decide +kernel
  obtain ⟨hcode, hshown⟩ := validate_agrees t "conf.toml" hsame
  exact ⟨hsame, hascii, hexists, hload, hcode.mpr ⟨hexists, _, hload⟩,
    (hshown _ hexists hload).2 hascii⟩

/-- The server finds settings in a file whose name has an extension that its path has not. -/
theorem validate_extension :
    let t := FileTree.ofFiles [("conf.toml", "[loadbalancing]\ntype = \"roundrobin\"\n")]
    Settings.load t ⟨"conf"⟩ = .ok {} ∧ (validate t "conf").code = 1 := by
  decide +kernel

end CommandLine

end ReverseProxy
