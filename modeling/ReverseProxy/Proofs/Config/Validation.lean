import ReverseProxy.Config.Validation
import ReverseProxy.Proofs.Net.Listen

/-!
# Valid settings

Settings are valid if an address to listen on is found and nothing else is wrong with them. All that
depends on a lookup is the address, and that depends on nothing else.
-/

namespace ReverseProxy.Settings

variable {s t : Settings} {names names' : Net.Names}

theorem validate_eq_ok_iff : s.validate names = .ok () ↔
    (∃ a, s.listenAddress names = .ok a) ∧ s.otherProblems = [] := by
  unfold validate problems
  cases ha : s.listenAddress names with
  | ok a => simp
  | error e => simp

/-- Valid settings that name the address of others are valid by each lookup by which these are. -/
theorem validate_of_bind (hbind : t.bind = s.bind) (hs : s.validate names = .ok ())
    (ht : t.validate names' = .ok ()) : t.validate names = .ok () := by
  obtain ⟨⟨a, ha⟩, -⟩ := validate_eq_ok_iff.mp hs
  obtain ⟨-, hother⟩ := validate_eq_ok_iff.mp ht
  refine validate_eq_ok_iff.mpr ⟨⟨a, ?_⟩, hother⟩
  rw [listenAddress, hbind]
  exact ha

theorem validate_mono (hfinds : ∀ host, names.Finds host → names'.Finds host)
    (hs : s.validate names = .ok ()) : s.validate names' = .ok () := by
  obtain ⟨ha, hother⟩ := validate_eq_ok_iff.mp hs
  exact validate_eq_ok_iff.mpr ⟨Net.exists_listenAddress_mono hfinds ha, hother⟩

end ReverseProxy.Settings
