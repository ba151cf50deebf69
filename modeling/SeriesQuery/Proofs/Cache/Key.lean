import Mathlib.Data.List.Nodup
import SeriesQuery.Cache.Key
import SeriesQuery.Proofs.Digest.Hex
import SeriesQuery.Proofs.Query.RoundTrip

/-!
# What a cache key stands for

The text that is hashed for a key determines the query and the placeholders, and the key determines
the digest. Two compilations with one key are therefore the same unless their hashed bytes collide.
-/

namespace SeriesQuery.Cache

open Compile (Options)
open Json (Node Value)
open Query (Descriptor)

/-! ### Bytes -/

theorem toList_loop_eq (bytes : ByteArray) (i : Nat) (read : List UInt8) :
    ByteArray.toList.loop bytes i read = read.reverse ++ bytes.data.toList.drop i := by
  fun_induction ByteArray.toList.loop bytes i read with
  | case1 i read hlt ih =>
    have hlt' : i < bytes.data.toList.length := hlt
    have hget : bytes.get! i = bytes.data.toList[i] := getElem!_pos bytes.data i hlt
    rw [ih, List.reverse_cons, List.append_assoc, List.singleton_append,
      List.drop_eq_getElem_cons hlt', hget]
  | case2 i read hge =>
    have hge' : bytes.data.toList.length ≤ i := Nat.le_of_not_lt hge
    rw [List.drop_of_length_le hge', List.append_nil]

theorem toList_eq_data (bytes : ByteArray) : bytes.toList = bytes.data.toList := by
  rw [ByteArray.toList, toList_loop_eq]
  rfl

theorem hashedBytes_eq_flatMap (v : Value) :
    hashedBytes v = keyVersion :: v.chars.flatMap String.utf8EncodeChar := by
  unfold hashedBytes Value.text
  rw [String.toUTF8_eq_toByteArray, String.toByteArray_ofList, toList_eq_data, List.utf8Encode,
    List.toList_data_toByteArray]

theorem text_eq_of_hashedBytes_eq {v w : Value} (h : hashedBytes v = hashedBytes w) :
    v.text = w.text := by
  have hbytes := (List.cons.inj h).2
  rw [toList_eq_data, toList_eq_data] at hbytes
  have harray := ByteArray.ext (Array.toList_inj.1 hbytes)
  rwa [String.toUTF8_eq_toByteArray, String.toUTF8_eq_toByteArray, String.toByteArray_inj]
    at harray

/-! ### Queries with their placeholders -/

theorem isIntegral_keyValue (d : Descriptor) (o : Options) : (keyValue d o).IsIntegral := by
  have hoptions : o.toJson.IsIntegral := ⟨trivial, trivial, trivial, trivial⟩
  exact ⟨d.readsBack_toJson.integral, hoptions, trivial⟩

theorem options_eq_of_ofValue_eq {o o' : Options}
    (h : Node.ofValue o.toJson = Node.ofValue o'.toJson) : o = o' := by
  obtain ⟨time, dataset, rows⟩ := o
  obtain ⟨time', dataset', rows'⟩ := o'
  simpa [Options.toJson, Node.ofValue, Node.ofFields] using h

/-- Nothing that a compilation depends on is missing from the text of its key. -/
theorem eq_of_keyValue_text_eq {d d' : Descriptor} {o o' : Options}
    (h : (keyValue d o).text = (keyValue d' o').text) : d = d' ∧ o = o' := by
  have hnode := Node.ofValue_eq_of_text_eq (isIntegral_keyValue d o) (isIntegral_keyValue d' o') h
  have hitems := (Node.array.inj hnode).1
  have hd := (List.cons.inj hitems).1
  have ho := (List.cons.inj (List.cons.inj hitems).2).1
  exact ⟨d.readsBack_toJson.eq_of_ofValue_eq d'.readsBack_toJson hd, options_eq_of_ofValue_eq ho⟩

theorem eq_of_hashedBytes_eq {d d' : Descriptor} {o o' : Options}
    (h : hashedBytes (keyValue d o) = hashedBytes (keyValue d' o')) : d = d' ∧ o = o' :=
  eq_of_keyValue_text_eq (text_eq_of_hashedBytes_eq h)

/-! ### Keys -/

/-- Whether two different byte strings have the same hash. -/
def Collide (a b : List UInt8) : Prop := a ≠ b ∧ Digest.Sha256.hash a = Digest.Sha256.hash b

/-- The text that is hashed for a compilation is that of no other one, so that two compilations
have one key only when they are the same or their hashed bytes collide. -/
theorem keyValue_text_determines (d d' : Descriptor) (o o' : Options) :
    ((keyValue d o).text = (keyValue d' o').text ↔ d = d' ∧ o = o') ∧
    (key d o = key d' o' ↔ (d = d' ∧ o = o') ∨
      Collide (hashedBytes (keyValue d o)) (hashedBytes (keyValue d' o'))) := by
  have htext : (keyValue d o).text = (keyValue d' o').text ↔ d = d' ∧ o = o' := by
    refine ⟨eq_of_keyValue_text_eq, ?_⟩
    rintro ⟨rfl, rfl⟩
    rfl
  refine ⟨htext, ?_⟩
  constructor
  · intro hkey
    by_cases hbytes : hashedBytes (keyValue d o) = hashedBytes (keyValue d' o')
    · exact .inl (eq_of_hashedBytes_eq hbytes)
    · exact .inr ⟨hbytes, Digest.Sha256.State.hex_inj hkey⟩
  · rintro (⟨rfl, rfl⟩ | ⟨-, hhash⟩)
    · rfl
    · exact congrArg Digest.Sha256.State.hex hhash

/-- Whether the hash tells all of the given byte strings apart. -/
def CollisionFree (inputs : List (List UInt8)) : Prop :=
  ∀ a ∈ inputs, ∀ b ∈ inputs, Digest.Sha256.hash a = Digest.Sha256.hash b → a = b

theorem CollisionFree.of_nodup {inputs : List (List UInt8)}
    (h : (inputs.map Digest.Sha256.hash).Nodup) : CollisionFree inputs :=
  fun _ ha _ hb => List.inj_on_of_nodup_map h ha hb

theorem hash_eq_of_key_eq {d d' : Descriptor} {o o' : Options} (h : key d o = key d' o') :
    Digest.Sha256.hash (hashedBytes (keyValue d o)) =
      Digest.Sha256.hash (hashedBytes (keyValue d' o')) :=
  Digest.Sha256.State.hex_inj h

theorem eq_of_key_eq {inputs : List (List UInt8)} (hinputs : CollisionFree inputs)
    {d d' : Descriptor} {o o' : Options} (hmem : hashedBytes (keyValue d o) ∈ inputs)
    (hmem' : hashedBytes (keyValue d' o') ∈ inputs) (h : key d o = key d' o') :
    d = d' ∧ o = o' := by
  have hbytes := hinputs _ hmem _ hmem' (hash_eq_of_key_eq h)
  exact eq_of_hashedBytes_eq hbytes

end SeriesQuery.Cache
