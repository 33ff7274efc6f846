import AiBridge.Text

namespace Text

/-- The bytes of a text in UTF-8. -/
def utf8 (s : String) : List UInt8 := s.toList.flatMap String.utf8EncodeChar

/-- The text that bytes in UTF-8 spell, if they do. -/
def fromUtf8 (bytes : List UInt8) : Option String :=
  bytes.toByteArray.utf8Decode?.map fun chars => String.ofList chars.toList

theorem fromUtf8_utf8 (s : String) : fromUtf8 (utf8 s) = some s := by
  have hencode : (utf8 s).toByteArray = s.toList.utf8Encode := rfl
  rw [fromUtf8, hencode, List.utf8Decode?_utf8Encode, Option.map_some, List.toList_toArray,
    String.ofList_toList]

theorem utf8_append (s t : String) : utf8 (s ++ t) = utf8 s ++ utf8 t := by
  rw [utf8, String.toList_append, List.flatMap_append]
  rfl

theorem utf8_newline : utf8 "\n" = [10] := by decide

theorem ofNat_ne_newline {n : Nat} (hlow : 128 ≤ n) (hhigh : n < 256) :
    (10 : UInt8) ≠ UInt8.ofNat n := by
  intro h
  have hnat := congrArg UInt8.toNat h
  rw [UInt8.toNat_ofNat'] at hnat
  have hten : (10 : UInt8).toNat = 10 := rfl
  omega

/-- The byte of a newline encodes nothing else. -/
theorem newline_mem_utf8EncodeChar {c : Char} (h : (10 : UInt8) ∈ String.utf8EncodeChar c) :
    c = '\n' := by
  unfold String.utf8EncodeChar at h
  simp only at h
  split at h
  next hascii =>
    have hnat := congrArg UInt8.toNat (List.mem_singleton.mp h)
    rw [UInt8.toNat_ofNat'] at hnat
    have hten : (10 : UInt8).toNat = 10 := rfl
    apply Char.ext
    apply UInt32.toNat.inj
    show c.val.toNat = 10
    omega
  -- every byte of a longer encoding is 128 or more
  next =>
    exfalso
    split at h
    next =>
      simp only [List.mem_cons, List.not_mem_nil, or_false] at h
      rcases h with h | h
      all_goals exact ofNat_ne_newline (by omega) (by omega) h
    next =>
      split at h
      all_goals simp only [List.mem_cons, List.not_mem_nil, or_false] at h
      · rcases h with h | h | h
        all_goals exact ofNat_ne_newline (by omega) (by omega) h
      · rcases h with h | h | h | h
        all_goals exact ofNat_ne_newline (by omega) (by omega) h

theorem newline_mem_utf8_iff {s : String} : (10 : UInt8) ∈ utf8 s ↔ '\n' ∈ s.toList := by
  rw [utf8, List.mem_flatMap]
  constructor
  · intro h
    obtain ⟨c, hc, hbyte⟩ := h
    rwa [newline_mem_utf8EncodeChar hbyte] at hc
  · intro h
    exact ⟨'\n', h, by decide⟩

theorem fromUtf8_eq_some_iff {bytes : List UInt8} {s : String} :
    fromUtf8 bytes = some s ↔ bytes = utf8 s := by
  constructor
  · intro h
    obtain ⟨chars, hchars, hs⟩ := Option.map_eq_some_iff.mp h
    have hvalid : bytes.toByteArray.utf8Decode?.isSome = true := by rw [hchars]; rfl
    obtain ⟨decoded, hdecoded⟩ := ByteArray.isSome_utf8Decode?_iff.mp hvalid
    rw [hdecoded, List.utf8Decode?_utf8Encode, Option.some.injEq] at hchars
    rw [← hs, ← hchars, utf8, String.toList_ofList]
    have hbytes := congrArg (fun array => array.data.toList) hdecoded
    simpa [List.utf8Encode] using hbytes
  · intro h
    rw [h, fromUtf8_utf8]

/-- A newline behind a text changes nothing about what its bytes spell. -/
theorem fromUtf8_concat_newline (bytes : List UInt8) :
    fromUtf8 (bytes ++ [10]) = (fromUtf8 bytes).map (· ++ "\n") := by
  apply Option.ext
  intro s
  rw [fromUtf8_eq_some_iff, Option.map_eq_some_iff]
  constructor
  · intro h
    have hne : s.toList ≠ [] := by
      intro hnil
      rw [utf8, hnil] at h
      simp at h
    obtain ⟨front, last, hsplit⟩ := List.eq_nil_or_concat s.toList |>.resolve_left hne
    have hbytes : bytes ++ [10] = front.flatMap String.utf8EncodeChar ++
        String.utf8EncodeChar last := by
      rw [h, utf8, hsplit]
      simp
    have hchar : String.utf8EncodeChar last ≠ [] := by
      have hlength := String.length_utf8EncodeChar last
      have hpos := Char.utf8Size_pos last
      exact List.ne_nil_of_length_pos (by omega)
    have hten : (10 : UInt8) ∈ String.utf8EncodeChar last := by
      have hlast := congrArg List.getLast? hbytes
      rw [List.getLast?_concat, List.getLast?_append_of_ne_nil _ hchar] at hlast
      exact List.mem_of_getLast? hlast.symm
    have hnewline := newline_mem_utf8EncodeChar hten
    refine ⟨String.ofList front, ?_, ?_⟩
    · rw [fromUtf8_eq_some_iff, utf8, String.toList_ofList]
      rw [hnewline] at hbytes
      exact List.append_cancel_right hbytes
    · rw [← String.toList_inj, hsplit, hnewline]
      simp
  · intro h
    obtain ⟨t, ht, hs⟩ := h
    rw [← hs, utf8_append, utf8_newline, fromUtf8_eq_some_iff.mp ht]

end Text
