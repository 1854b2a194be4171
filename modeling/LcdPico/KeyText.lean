import LcdPico.ConfigInvariant
import LcdPico.HostPlatform

/-!
# The text of an SSH public key (`str_to_ssh_pubkey`, `ssh_pubkey_to_str`)

A key that was accepted is printed as its type, its bytes in Base64, and its name. What
is known of libb64 is that it puts line breaks among the symbols, and reads the bytes
back. A line break does not end the field, and there is room for all of them in the
buffer of `sshpubkeys2json`.
-/

namespace LcdPico

/-- libb64: the symbols of the bytes, with a line break behind 72 of them and at the end
at most, are decoded to the bytes. -/
structure Platform.Libb64 {F D : Type} (P : Platform F D) : Prop where
  decode_encode : ∀ bytes, P.base64decodeRaw (P.base64encodeRaw bytes) = bytes
  symbols : ∀ bytes, (P.base64encodeRaw bytes).filter (· ≠ '\n') = Base64.encode bytes
  lines : ∀ bytes,
    (P.base64encodeRaw bytes).count '\n' ≤ (Base64.encode bytes).length / 72 + 1

section

variable {F D : Type} {P : Platform F D}

/-- The symbols and the line breaks are all that is written. -/
theorem Platform.Libb64.length_encode (hP : P.Libb64) (bytes : List UInt8) :
    (P.base64encodeRaw bytes).length =
      (Base64.encode bytes).length + (P.base64encodeRaw bytes).count '\n' := by
  rw [List.length_eq_countP_add_countP (· ≠ '\n'), List.countP_eq_length_filter, hP.symbols,
    List.count_eq_countP]
  congr 1
  apply List.countP_congr
  intro c _
  simp

theorem Platform.Libb64.encodesKeys (hP : P.Libb64) : P.EncodesKeys where
  decode_encode := hP.decode_encode
  encode_ne_nil bytes hne hnil := by
    have hsymbols := hP.symbols bytes
    rw [hnil] at hsymbols
    exact Base64.encode_ne_nil hne hsymbols.symm
  encode_noBlank bytes hmem := by
    have hblank : ' ' ∈ (P.base64encodeRaw bytes).filter (· ≠ '\n') :=
      List.mem_filter.mpr ⟨hmem, by decide⟩
    rw [hP.symbols] at hblank
    exact Base64.blank_notMem_encode bytes hblank
  length_encode bytes hbytes := by
    have hlength := hP.length_encode bytes
    have hsymbols := Base64.length_encode_le bytes
    have hlines := hP.lines bytes
    omega

/-! ## Main result -/

/-- A key that is accepted has 1 to 128 bytes with its type among them; its text fits
the buffer, is accepted, and gives the same key. -/
theorem ssh_pubkey_text_round_trip (hP : P.Libb64) {s : CString} {pk k : SshPublicKey}
    (h : strToSshPubkey P s pk = (true, k)) :
    (1 ≤ k.pubkeySize ∧ k.pubkeySize ≤ 128) ∧
      memmem k.pubkey.val (rawBytes k.type.val) = true ∧
      sshPubkeyToStr P k 256 =
        k.type.val ++ ' ' :: (P.base64encodeRaw k.pubkey.val ++ ' ' :: k.name.val) ∧
      ∀ pk', ∃ k', strToSshPubkey P (sshPubkeyToStr P k 256) pk' = (true, k') ∧
        k'.type = k.type ∧ k'.name = k.name ∧ k'.pubkey = k.pubkey ∧
        k'.pubkeySize = k.pubkeySize := by
  have hk := strToSshPubkey_wellFormed h
  refine ⟨⟨hk.pubkey_pos, k.pubkey.property⟩, hk.type_mem, sshPubkeyToStr_eq hP.encodesKeys k, ?_⟩
  intro pk'
  have hparse := strToSshPubkey_str hP.encodesKeys hk pk'
  exact ⟨_, hparse, rfl, rfl, rfl, rfl⟩

end

/-- libb64 on texts of one line. -/
def linePlatform : Platform ℚ (Option ℚ) :=
  { hostPlatform with base64encodeRaw := fun bytes => Base64.encode bytes ++ ['\n'] }

theorem value_newline : Base64.value '\n' = none := by decide +kernel

theorem linePlatform_libb64 : linePlatform.Libb64 where
  decode_encode bytes := by
    have hdecode : Base64.decode (Base64.encode bytes ++ ['\n']) = bytes := by
      rw [Base64.decode, List.filterMap_append, List.filterMap_cons_none value_newline,
        List.filterMap_nil, List.append_nil]
      exact Base64.decode_encode bytes
    exact hdecode
  symbols bytes := by
    have hnone := Base64.notMem_encode value_newline (by decide) bytes
    have hfilter : (Base64.encode bytes ++ ['\n']).filter (· ≠ '\n') = Base64.encode bytes := by
      rw [List.filter_append, List.filter_eq_self.mpr]
      · simp
      · intro c hc
        exact decide_eq_true fun h : c = '\n' => hnone (h ▸ hc)
    exact hfilter
  lines bytes := by
    have hnone := Base64.notMem_encode value_newline (by decide) bytes
    have hcount : (Base64.encode bytes ++ ['\n']).count '\n' = 1 := by
      rw [List.count_append, List.count_eq_zero_of_not_mem hnone]
      rfl
    exact Nat.le_trans (Nat.le_of_eq hcount) (Nat.le_add_left 1 _)

/-- A key of which the bytes are those of its type. -/
def typeKey : SshPublicKey :=
  { username := CStr.empty
    type := CStr.copy "ssh-ed25519".toList
    name := CStr.copy "me".toList
    pubkey := ⟨rawBytes "ssh-ed25519".toList, by decide⟩ }

theorem ssh_pubkey_text_round_trip_short :
    sshPubkeyToStr linePlatform typeKey 256 =
        typeKey.type.val ++ ' ' ::
          (linePlatform.base64encodeRaw typeKey.pubkey.val ++ ' ' :: typeKey.name.val) ∧
      ∃ k', strToSshPubkey linePlatform (sshPubkeyToStr linePlatform typeKey 256) default =
        (true, k') ∧ k'.pubkey = typeKey.pubkey := by
  have haccepted : strToSshPubkey linePlatform "ssh-ed25519 c3NoLWVkMjU1MTk= me".toList default =
      (true, typeKey) := by decide +kernel
  obtain ⟨-, -, htext, hagain⟩ := ssh_pubkey_text_round_trip linePlatform_libb64 haccepted
  obtain ⟨k', hk', -, -, hpubkey, -⟩ := hagain default
  exact ⟨htext, k', hk', hpubkey⟩

end LcdPico
