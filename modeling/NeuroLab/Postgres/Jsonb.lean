import NeuroLab.Postgres.Columns
import NeuroLab.Python.JsonOctets

/-!
# Documents in a `JSONB` column

What is taken of PostgreSQL here: a value with distinct keys and finite numbers is stored up to the
order of its members, unless a text of it has a NUL, and is printed with a space behind each comma
and colon. So the length of the printed document follows from the text that was sent.
-/

namespace NeuroLab.Postgres

open Python

mutual

/-- Whether the keys of every object are distinct and the numbers finite. -/
def jsonbShaped : Json → Bool
  | .float (.finite ..) => true
  | .float _ => false
  | .arr vs => jsonbShapedItems vs
  | .obj fs => decide (fs.map Prod.fst).Nodup && jsonbShapedFields fs
  | _ => true

/-- Item by item. -/
def jsonbShapedItems : List Json → Bool
  | [] => true
  | v :: vs => jsonbShaped v && jsonbShapedItems vs

/-- Member by member. -/
def jsonbShapedFields : List (Str × Json) → Bool
  | [] => true
  | (_, v) :: fs => jsonbShaped v && jsonbShapedFields fs

end

/-- What `jsonb` does with a value of that shape, of moderate depth and length. -/
structure KeepsJson (server : Server) : Prop where
  reordered : ∀ v w, jsonbShaped v = true → server.jsonb v = some w → v.Reordered w
  accepts_iff : ∀ v, jsonbShaped v = true → v.depth ≤ 64 → server.octets v ≤ 65536 →
    (∀ s ∈ v.texts, Encodable s) → ((server.jsonb v).isSome = true ↔ ∀ s ∈ v.texts, 0 ∉ s)
  encodable_numericText : ∀ x, Encodable (server.numericText x)

namespace KeepsJson

variable {server : Server} {v w : Json}

/-- The length of a printed document. -/
theorem octets_eq (h : KeepsJson server) (htexts : ∀ s ∈ v.texts, Encodable s) :
    server.octets v = octets (compact server.numericText v) + v.separators := by
  have hperm := dumps_perm (r := server.numericText) v
  have hspaces : Encodable (List.replicate v.separators 0x20) := fun c hc => by
    rw [List.eq_of_mem_replicate hc]
    rfl
  have hencodable : Encodable (dumps server.numericText v) := fun c hc =>
    Encodable.append_iff.mpr ⟨(encodable_compact_iff h.encodable_numericText v).mpr htexts, hspaces⟩ c
      (hperm.mem_iff.mp hc)
  obtain ⟨bytes, hbytes⟩ := Option.isSome_iff_exists.mp (isSome_utf8_iff.mpr hencodable)
  rw [Server.octets, hbytes, Option.getD_some, length_utf8 hbytes, octets_of_perm hperm, octets_append,
    octets_replicate_space]

/-- The order of the members does not change the length. -/
theorem octets_reordered (h : KeepsJson server) (htexts : ∀ s ∈ v.texts, Encodable s) (hreordered : v.Reordered w) :
    server.octets w = server.octets v := by
  have hw : ∀ s ∈ w.texts, Encodable s := fun s hs => htexts s ((hreordered.mem_texts s).mp hs)
  rw [h.octets_eq htexts, h.octets_eq hw, octets_of_perm hreordered.compact_perm, hreordered.separators_eq]

/-- The length of a printed document, from another text of it. -/
theorem octets_add_eq (h : KeepsJson server) (htexts : ∀ s ∈ v.texts, Encodable s) (floatRepr : PyFloat → Str) :
    server.octets v + (v.floats.map fun x => octets (floatRepr x)).sum =
      octets (dumpsSorted floatRepr v) + v.separators + (v.floats.map fun x => octets (server.numericText x)).sum := by
  have hfloats := octets_of_perm (compact_perm_of_floats (r := server.numericText) (q := floatRepr) v)
  rw [octets_append, octets_append, octets_flatMap, octets_flatMap] at hfloats
  have hsorted : octets (dumpsSorted floatRepr v) = octets (compact floatRepr v) :=
    octets_of_perm (reordered_sortKeys v).compact_perm
  rw [h.octets_eq htexts, hsorted]
  omega

/-- An object is stored within so many octets, exactly if no text of it has a NUL and it is that short. -/
theorem stores_iff (h : KeepsJson server) {fields : List (Str × Json)} {most : ℕ}
    (hshaped : jsonbShaped (.obj fields) = true) (hdepth : (Json.obj fields).depth ≤ 64) (hmost : most ≤ 65536)
    (htexts : ∀ s ∈ (Json.obj fields).texts, Encodable s) :
    (∃ stored, server.jsonb (.obj fields) = some (.obj stored) ∧ server.octets (.obj stored) ≤ most) ↔
      (∀ s ∈ (Json.obj fields).texts, 0 ∉ s) ∧ server.octets (.obj fields) ≤ most := by
  constructor
  · rintro ⟨stored, hstored, hlength⟩
    rw [h.octets_reordered htexts (h.reordered _ _ hshaped hstored)] at hlength
    exact ⟨(h.accepts_iff _ hshaped hdepth (hlength.trans hmost) htexts).mp (by rw [hstored]; rfl), hlength⟩
  · rintro ⟨hnul, hlength⟩
    obtain ⟨w, hw⟩ := Option.isSome_iff_exists.mp
      ((h.accepts_iff _ hshaped hdepth (hlength.trans hmost) htexts).mpr hnul)
    have hreordered := h.reordered _ _ hshaped hw
    have hlength' := h.octets_reordered htexts hreordered
    cases hreordered with
    | same => exact ⟨fields, hw, hlength⟩
    | @obj _ gs hs => exact ⟨hs, hw, hlength'.le.trans hlength⟩

end KeepsJson

end NeuroLab.Postgres
