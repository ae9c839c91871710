import Mathlib.Data.List.TakeWhile
import Traceability.Proofs.Path
import Traceability.Proofs.Utf8
import Traceability.Uri

/-!
# Paths as URIs and back

A URI of a path is made of unreserved characters and percent signs behind its scheme, so no part of it
is taken for a host, a query or a fragment, and every byte of the path is read back from it.
-/
namespace Traceability.Uri

open Text (isHex hexValue isAsciiAlnum)

variable {c : Char} {t : Text}

/-! ## Bytes -/

theorem hex_hexDigit : ∀ n < 16, isHex (hexDigit n) = true ∧ hexValue (hexDigit n) = n := by
  decide

theorem isUnreserved_hexDigit : ∀ n < 16, isUnreserved (hexDigit n) = true := by
  decide

theorem bytesOf_cons_of_ne (plain : c ≠ '%') (t : Text) :
    bytesOf (c :: t) = .ofNat c.toNat :: bytesOf t := by
  rw [bytesOf.eq_def]
  split
  · next empty => cases empty
  · next escape =>
    cases escape
    exact absurd rfl plain
  · next same =>
    cases same
    rfl

theorem bytesOf_escape {m n : Nat} (high : m < 16) (low : n < 16) (t : Text) :
    bytesOf ('%' :: hexDigit m :: hexDigit n :: t) = .ofNat (16 * m + n) :: bytesOf t := by
  obtain ⟨hexHigh, valueHigh⟩ := hex_hexDigit m high
  obtain ⟨hexLow, valueLow⟩ := hex_hexDigit n low
  rw [bytesOf, hexHigh, hexLow, valueHigh, valueLow]
  rfl

/-- A byte is read back from what it is in a URI, whatever follows. -/
theorem bytesOf_encodeByte (b : UInt8) (t : Text) :
    bytesOf (encodeByte b ++ t) = b :: bytesOf t := by
  have small : b.toNat < 256 := b.toNat_lt
  unfold encodeByte
  dsimp only
  split
  · next free =>
    have plain : Char.ofNat b.toNat ≠ '%' := by
      intro percent
      rw [percent] at free
      revert free
      decide
    have code : (Char.ofNat b.toNat).toNat = b.toNat := by
      rw [Char.ofNat, dif_pos (.inl (Nat.lt_trans small (by decide)))]
      rfl
    rw [List.singleton_append, bytesOf_cons_of_ne plain, code, UInt8.ofNat_toNat]
  · rw [List.cons_append, List.cons_append, List.singleton_append,
      bytesOf_escape (by omega) (by omega), Nat.div_add_mod, UInt8.ofNat_toNat]

theorem bytesOf_encode (t : Text) : bytesOf (encode t) = Text.Utf8.encode t := by
  rw [encode]
  induction Text.Utf8.encode t with
  | nil => rfl
  | cons b bytes ih => rw [List.flatMap_cons, bytesOf_encodeByte, ih]

/-! ## Characters -/

/-- Whether a character stands for itself in a path of a URI: it is in ASCII and no blank, and ends no
part of a URI. -/
def IsPlain (c : Char) : Prop := 32 < c.toNat ∧ c.toNat < 128 ∧ c ≠ '#' ∧ c ≠ '?'

instance (c : Char) : Decidable (IsPlain c) := inferInstanceAs (Decidable (_ ∧ _))

theorem isPlain_of_all (all : t.all (decide <| IsPlain ·) = true) : ∀ c ∈ t, IsPlain c :=
  fun c member => of_decide_eq_true (List.all_eq_true.mp all c member)

theorem isPlain_of_isUnreserved (free : isUnreserved c = true) : IsPlain c := by
  rw [isUnreserved, Bool.or_eq_true, decide_eq_true_iff] at free
  rcases free with alnum | mark
  · simp only [isAsciiAlnum, Bool.or_eq_true, Bool.and_eq_true, decide_eq_true_eq, Char.le_def,
      UInt32.le_iff_toNat_le] at alnum
    change ((97 ≤ c.toNat ∧ c.toNat ≤ 122) ∨ 65 ≤ c.toNat ∧ c.toNat ≤ 90) ∨
      48 ≤ c.toNat ∧ c.toNat ≤ 57 at alnum
    refine ⟨by omega, by omega, ?_, ?_⟩
    · rintro rfl
      revert alnum
      decide
    · rintro rfl
      revert alnum
      decide
  · exact isPlain_of_all (by decide) c mark

theorem isPlain_of_mem_encode (member : c ∈ encode t) : IsPlain c := by
  obtain ⟨b, _, inside⟩ := List.mem_flatMap.mp member
  have small : b.toNat < 256 := b.toNat_lt
  unfold encodeByte at inside
  dsimp only at inside
  split at inside
  · next free =>
    rw [List.mem_singleton.mp inside]
    exact isPlain_of_isUnreserved free
  · simp only [List.mem_cons, List.not_mem_nil, or_false] at inside
    rcases inside with rfl | rfl | rfl
    · decide
    · exact isPlain_of_isUnreserved (isUnreserved_hexDigit _ (by omega))
    · exact isPlain_of_isUnreserved (isUnreserved_hexDigit _ (by omega))

theorem decodeFrom_of_plain (plain : ∀ c ∈ t, IsPlain c) (run : Text) :
    decodeFrom run t = Text.Utf8.decodeLossy (bytesOf (run.reverse ++ t)) := by
  induction t generalizing run with
  | nil => rw [decodeFrom, List.append_nil]
  | cons c t ih =>
    obtain ⟨first, later⟩ := List.forall_mem_cons.mp plain
    have ascii : isAscii c = true := decide_eq_true first.2.1
    rw [decodeFrom, if_pos ascii, ih later, List.reverse_cons, List.append_assoc,
      List.singleton_append]

/-- A text is read back from what it is in a URI. -/
theorem decode_encode (t : Text) : decode (encode t) = t := by
  rw [decode, decodeFrom_of_plain (fun _ => isPlain_of_mem_encode), List.reverse_nil, List.nil_append,
    bytesOf_encode, Text.Utf8.decodeLossy_encode]

/-! ## Parts -/

theorem clean_of_plain (plain : ∀ c ∈ t, IsPlain c) : clean t = t := by
  have front : t.dropWhile (fun c => c.toNat ≤ 32) = t := by
    cases t with
    | nil => rfl
    | cons c t =>
      have visible := (plain c List.mem_cons_self).1
      exact List.dropWhile_cons_of_neg (by simpa using visible)
  rw [clean, front, List.filter_eq_self]
  intro c member
  have visible := (plain c member).1
  have other : ∀ d : Char, d.toNat ≤ 32 → c ≠ d := by
    rintro d low rfl
    omega
  simp [other '\t' (by decide), other '\r' (by decide), other '\n' (by decide)]

theorem withoutQuery_of_plain (plain : ∀ c ∈ t, IsPlain c) : withoutQuery t = t := by
  rw [withoutQuery, List.takeWhile_eq_self_iff]
  intro c member
  obtain ⟨_, _, fragment, query⟩ := plain c member
  simp [fragment, query]

theorem splitScheme_file (t : Text) : splitScheme ("file:" ++ t) = ("file".toList, t) := rfl

/-- Behind two slashes a third one ends an empty host. -/
theorem splitHost_slash (t : Text) : splitHost ('/' :: '/' :: '/' :: t) = ([], '/' :: t) := rfl

theorem encode_slash (t : Text) : encode ('/' :: t) = '/' :: encode t := rfl

/-! ## Paths -/

theorem ofPath_of_absolute {p : Path} (proper : p.Proper) (absolute : p.isAbsolute = true) :
    ofPath p.toText = "file://" ++ encode p.toText := by
  rw [ofPath, Path.ofText_toText proper]
  exact if_pos absolute

theorem ofPath_of_relative {p : Path} (proper : p.Proper) (relative : p.isAbsolute = false) :
    ofPath p.toText = p.toText := by
  rw [ofPath, Path.ofText_toText proper, relative]
  rfl

/-- A path from the root is read back from its URI. -/
theorem toPath_ofPath {p : Path} (proper : p.Proper) (absolute : p.isAbsolute = true) :
    toPath (ofPath p.toText) = .ok p := by
  obtain ⟨t, slash⟩ := Path.exists_toText_eq_slash absolute
  have scheme : ∀ c ∈ "file://".toList, IsPlain c := isPlain_of_all (by decide)
  have plain : ∀ c ∈ ofPath p.toText, IsPlain c := by
    rw [ofPath_of_absolute proper absolute]
    intro c member
    rcases List.mem_append.mp member with before | behind
    · exact scheme c before
    · exact isPlain_of_mem_encode behind
  have uri : ofPath p.toText = "file:" ++ '/' :: '/' :: '/' :: encode t := by
    rw [ofPath_of_absolute proper absolute, slash, encode_slash]
    rfl
  have path : decode (withoutQuery ('/' :: encode t)) = p.toText := by
    rw [← encode_slash, ← slash, withoutQuery_of_plain fun _ => isPlain_of_mem_encode, decode_encode]
  have host : hostFault? [] = none := by decide
  rw [toPath, clean_of_plain plain, uri, splitScheme_file]
  dsimp only
  rw [splitHost_slash, host]
  dsimp only
  rw [if_pos rfl, path, Path.ofText_toText proper]

/-- No relative path spells a file URI, as there is a name between any two of its slashes. -/
theorem ofPath_ne_of_relative {p q : Path} (properP : p.Proper) (properQ : q.Proper)
    (absolute : p.isAbsolute = true) (relative : q.isAbsolute = false) :
    ofPath p.toText ≠ ofPath q.toText := by
  intro same
  have scheme : '/' ∉ "file:".toList := by decide
  have pieces : Text.splitOn '/' q.toText =
      "file:".toList :: [] :: Text.splitOn '/' (encode p.toText) := by
    rw [← ofPath_of_relative properQ relative, ← same, ofPath_of_absolute properP absolute,
      ← Text.splitOn_cons_separator]
    exact Text.splitOn_append_separator scheme _
  refine Path.nil_not_mem_splitOn_toText properQ relative ?_
  rw [pieces]
  exact List.mem_cons_of_mem _ List.mem_cons_self

theorem ofPath_injective {p q : Path} (properP : p.Proper) (properQ : q.Proper)
    (same : ofPath p.toText = ofPath q.toText) : p = q := by
  cases absoluteP : p.isAbsolute with
  | true =>
    cases absoluteQ : q.isAbsolute with
    | true =>
      have read := toPath_ofPath properP absoluteP
      rw [same, toPath_ofPath properQ absoluteQ] at read
      exact (Except.ok.inj read).symm
    | false => exact absurd same (ofPath_ne_of_relative properP properQ absoluteP absoluteQ)
  | false =>
    cases absoluteQ : q.isAbsolute with
    | true => exact absurd same.symm (ofPath_ne_of_relative properQ properP absoluteQ absoluteP)
    | false =>
      rw [ofPath_of_relative properP absoluteP, ofPath_of_relative properQ absoluteQ] at same
      exact Path.toText_injective properP properQ same

end Traceability.Uri
