import ProductionStack.JsonText

namespace ProductionStack.Utf8Text

open JsonText

abbrev Bytes := List UInt8

def scalar (c : Nat) : Bool := c < 0xD800 || (0xDFFF < c && c < 0x110000)

/-- None where Python raises UnicodeEncodeError. -/
def encode (t : Text) : Option Bytes :=
  if t.all scalar then some (t.flatMap (fun c => String.utf8EncodeChar (Char.ofNat c))) else none

/-- One character after the other. The fuel is the number of bytes. -/
def decodeFrom : Nat → Bytes → Option Text
  | _, [] => some []
  | 0, _ => none
  | fuel + 1, bytes =>
    match (bytes.take 4).toByteArray.utf8DecodeChar? 0 with
    | some c => (decodeFrom fuel (bytes.drop c.utf8Size)).map (c.toNat :: ·)
    | none => none

/-- None where Python raises UnicodeDecodeError. -/
def decode (bytes : Bytes) : Option Text := decodeFrom bytes.length bytes

theorem decode_lt {bytes : Bytes} {t : Text} (h : decode bytes = some t) : ∀ c ∈ t, c < 0x110000 := by
  rw [decode] at h
  generalize bytes.length = fuel at h
  induction fuel generalizing bytes t with
  | zero =>
    cases bytes with
    | nil =>
      cases h
      nofun
    | cons b bytes => cases h
  | succ fuel ih =>
    cases bytes with
    | nil =>
      cases h
      nofun
    | cons b bytes =>
      rw [decodeFrom] at h
      · split at h
        next c hc =>
          obtain ⟨rest, hrest, rfl⟩ := Option.map_eq_some_iff.mp h
          rw [List.forall_mem_cons]
          refine ⟨?_, ih hrest⟩
          have hvalid : c.toNat.isValidChar := c.valid
          rcases hvalid with hlow | ⟨-, hhigh⟩
          · exact Nat.lt_trans hlow (by decide)
          · exact hhigh
        · cases h
      · exact List.cons_ne_nil _ _

theorem toNat_ofNat {c : Nat} (h : scalar c = true) : (Char.ofNat c).toNat = c := by
  have hvalid : c.isValidChar := by
    simp only [scalar, Bool.or_eq_true, Bool.and_eq_true, decide_eq_true_eq] at h
    exact h
  rw [Char.ofNat, dif_pos hvalid]
  rfl

theorem decodeFrom_char (c : Char) (rest : Bytes) (fuel : Nat) :
    decodeFrom (fuel + 1) (String.utf8EncodeChar c ++ rest) = (decodeFrom fuel rest).map (c.toNat :: ·) := by
  have hlength : (String.utf8EncodeChar c).length = c.utf8Size := String.length_utf8EncodeChar c
  have hchar : ((String.utf8EncodeChar c ++ rest).take 4).toByteArray.utf8DecodeChar? 0 = some c := by
    have hsize := Char.utf8Size_le_four c
    rw [List.take_append, List.take_of_length_le (by omega), List.toByteArray_append]
    exact ByteArray.utf8DecodeChar?_utf8EncodeChar_append
  have hdrop : (String.utf8EncodeChar c ++ rest).drop c.utf8Size = rest := by rw [← hlength, List.drop_left]
  cases hbytes : String.utf8EncodeChar c ++ rest with
  | nil =>
    have hpos := Char.utf8Size_pos c
    have hnil := List.append_eq_nil_iff.mp hbytes
    rw [hnil.1, List.length_nil] at hlength
    omega
  | cons b bytes =>
    rw [hbytes] at hchar hdrop
    rw [decodeFrom, hchar]
    · dsimp only
      rw [hdrop]
    · exact List.cons_ne_nil _ _

theorem decodeFrom_chars (cs : List Char) (fuel : Nat) (h : (cs.flatMap String.utf8EncodeChar).length ≤ fuel) :
    decodeFrom fuel (cs.flatMap String.utf8EncodeChar) = some (cs.map Char.toNat) := by
  induction cs generalizing fuel with
  | nil => cases fuel <;> rfl
  | cons c cs ih =>
    have hpos := Char.utf8Size_pos c
    rw [List.flatMap_cons, List.length_append, String.length_utf8EncodeChar] at h
    cases fuel with
    | zero => omega
    | succ fuel =>
      rw [List.flatMap_cons, decodeFrom_char, ih fuel (by omega)]
      rfl

theorem decode_encode {t : Text} {b : Bytes} (h : encode t = some b) : decode b = some t := by
  rw [encode] at h
  split at h
  next hall =>
    cases h
    have hmap : (t.map Char.ofNat).map Char.toNat = t := by
      rw [List.map_map]
      conv_rhs => rw [← List.map_id t]
      exact List.map_congr_left (fun c hc => toNat_ofNat (List.all_eq_true.mp hall c hc))
    have hchars := decodeFrom_chars (t.map Char.ofNat) _ (le_refl _)
    rw [hmap, List.flatMap_map] at hchars
    exact hchars
  · cases h

theorem encode_append {t t' : Text} {b b' : Bytes} (h : encode t = some b) (h' : encode t' = some b') :
    encode (t ++ t') = some (b ++ b') := by
  rw [encode] at h h' ⊢
  split at h
  next hall =>
    split at h'
    next hall' =>
      cases h
      cases h'
      rw [List.all_append, hall, hall', List.flatMap_append]
      rfl
    · cases h'
  · cases h

theorem scalar_toNat (c : Char) : scalar c.toNat = true := by
  have hvalid : c.toNat.isValidChar := c.valid
  simpa [scalar, Nat.isValidChar] using hvalid

theorem encode_decodeFrom {fuel : Nat} {bytes : Bytes} {t : Text} (h : decodeFrom fuel bytes = some t) :
    encode t = some bytes := by
  induction fuel generalizing bytes t with
  | zero =>
    cases bytes with
    | nil =>
      cases h
      rfl
    | cons b bytes => cases h
  | succ fuel ih =>
    cases bytes with
    | nil =>
      cases h
      rfl
    | cons b bytes =>
      rw [decodeFrom] at h
      · split at h
        next c hc =>
          obtain ⟨rest, hrest, rfl⟩ := Option.map_eq_some_iff.mp h
          have hchar : encode [c.toNat] = some (String.utf8EncodeChar c) := by
            rw [encode, List.all_cons, scalar_toNat]
            simp
          have hbytes : b :: bytes = String.utf8EncodeChar c ++ (b :: bytes).drop c.utf8Size := by
            have hdata := congrArg (fun b => b.data.toList) (ByteArray.eq_of_utf8DecodeChar?_eq_some hc)
            simp only [List.data_toByteArray, ByteArray.data_append, Array.toList_append] at hdata
            obtain ⟨rest, hrest⟩ := (List.prefix_append _ _).trans (hdata ▸ List.take_prefix 4 (b :: bytes))
            rw [← hrest, ← String.length_utf8EncodeChar c, List.drop_left]
          rw [hbytes]
          exact encode_append hchar (ih hrest)
        · cases h
      · exact List.cons_ne_nil _ _

theorem encode_decode {bytes : Bytes} {t : Text} (h : decode bytes = some t) : encode t = some bytes := encode_decodeFrom h

theorem decode_append {a b : Bytes} {t t' : Text} (h : decode a = some t) (h' : decode b = some t') :
    decode (a ++ b) = some (t ++ t') :=
  decode_encode (encode_append (encode_decode h) (encode_decode h'))

theorem decode_of_ascii {bytes : Bytes} (h : ∀ b ∈ bytes, b < 128) : decode bytes = some (bytes.map UInt8.toNat) := by
  refine decode_encode ?_
  have hlt : ∀ b ∈ bytes, b.toNat < 128 := fun b hb => UInt8.lt_iff_toNat_lt.mp (h b hb)
  have hscalar : ∀ b ∈ bytes, scalar b.toNat = true := by
    intro b hb
    have := hlt b hb
    simp [scalar]
    omega
  have hchar : ∀ b ∈ bytes, String.utf8EncodeChar (Char.ofNat b.toNat) = [b] := by
    intro b hb
    have hval : (Char.ofNat b.toNat).val.toNat = b.toNat := toNat_ofNat (hscalar b hb)
    have := hlt b hb
    rw [String.utf8EncodeChar, if_pos (by omega), hval]
    simp
  have hall : (bytes.map UInt8.toNat).all scalar = true := by simpa using hscalar
  rw [encode, if_pos hall, List.flatMap_map, List.flatMap_congr hchar]
  simp

theorem encode_inj {t t' : Text} {b : Bytes} (h : encode t = some b) (h' : encode t' = some b) : t = t' :=
  Option.some.inj ((decode_encode h).symm.trans (decode_encode h'))

theorem encode_of_append {t t' : Text} {b : Bytes} (h : encode (t ++ t') = some b) :
    ∃ b₁ b₂, encode t = some b₁ ∧ encode t' = some b₂ ∧ b = b₁ ++ b₂ := by
  rw [encode] at h
  split at h
  next hall =>
    rw [List.all_append, Bool.and_eq_true] at hall
    cases h
    refine ⟨_, _, if_pos hall.1, if_pos hall.2, ?_⟩
    rw [List.flatMap_append]
  · cases h

theorem length_encode_of_ascii {t : Text} (h : ∀ c ∈ t, c < 128) :
    ∃ bytes, encode t = some bytes ∧ bytes.length = t.length := by
  have hall : t.all scalar = true := by
    refine List.all_eq_true.mpr (fun c hc => ?_)
    have := h c hc
    simp only [scalar, Bool.or_eq_true, decide_eq_true_eq]
    omega
  have hone : ∀ c ∈ t, (String.utf8EncodeChar (Char.ofNat c)).length = 1 := by
    intro c hc
    have hscalar := List.all_eq_true.mp hall c hc
    have hvalue : (Char.ofNat c).val.toNat = c := toNat_ofNat hscalar
    rw [String.length_utf8EncodeChar, Char.utf8Size_eq_one_iff, UInt32.le_iff_toNat_le, hvalue]
    have := h c hc
    change c ≤ 127
    omega
  refine ⟨_, if_pos hall, ?_⟩
  rw [List.length_flatMap, List.map_congr_left hone]
  simp

theorem mem_utf8EncodeChar {c : Char} {b : UInt8} (h : b ∈ String.utf8EncodeChar c) (hb : b.toNat < 128) :
    b.toNat = c.toNat := by
  have hbyte : ∀ n : Nat, (UInt8.ofNat n).toNat = n % 256 := fun n => UInt8.toNat_ofNat'
  have hc : c.val.toNat = c.toNat := rfl
  rw [String.utf8EncodeChar] at h
  simp only [hc] at h
  split at h
  · obtain rfl := List.mem_singleton.mp h
    rw [hbyte]
    omega
  -- The bytes of the longer forms, each of them with its highest bit set.
  all_goals
    exfalso
    split at h
    · simp only [List.mem_cons, List.not_mem_nil, or_false] at h
      rcases h with rfl | rfl
      all_goals
        rw [hbyte] at hb
        omega
    · split at h
      · simp only [List.mem_cons, List.not_mem_nil, or_false] at h
        rcases h with rfl | rfl | rfl
        all_goals
          rw [hbyte] at hb
          omega
      · simp only [List.mem_cons, List.not_mem_nil, or_false] at h
        rcases h with rfl | rfl | rfl | rfl
        all_goals
          rw [hbyte] at hb
          omega

theorem newline_notMem {t : Text} {b : Bytes} (h : encode t = some b) (ht : '\n'.toNat ∉ t) : 10 ∉ b := by
  rw [encode] at h
  split at h
  next hall =>
    cases h
    intro hmem
    obtain ⟨c, hc, hb⟩ := List.mem_flatMap.mp hmem
    have heq := mem_utf8EncodeChar hb (by decide)
    rw [toNat_ofNat (List.all_eq_true.mp hall c hc)] at heq
    have hnewline : '\n'.toNat = c := heq
    exact ht (hnewline ▸ hc)
  · cases h

end ProductionStack.Utf8Text
