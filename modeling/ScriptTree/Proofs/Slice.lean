import ScriptTree.Proofs.Scan
import ScriptTree.Proofs.Relabeling
/-! Scanning a part of a text. What stands before the part matters only for where its tokens are
and for a star at its front; what stands behind it does not matter if a token ended there. -/
namespace ScriptTree

def Span.Cuts (s : Span) (text slice : String) : Prop :=
  ∃ before behind, text = before ++ slice ++ behind ∧
    s = ⟨before.utf8ByteSize, before.utf8ByteSize + slice.utf8ByteSize⟩

def Token.Unclosed (t : Token) : Prop :=
  t.kind = .string ∧ ∃ raw ∈ t.raw, raw.utf8ByteSize = t.text.utf8ByteSize + 1

def Kind.grows : Kind → Bool
  | .keyword _ => true
  | .identifier => true
  | .number => true
  | _ => false

namespace Span

theorem leadingAgree {a b c d : String} (same : a ++ b = c ++ d)
    (size : a.utf8ByteSize = c.utf8ByteSize) : a = c := by
  have bytes : a.toByteArray ++ b.toByteArray = c.toByteArray ++ d.toByteArray := by
    rw [← String.toByteArray_append, ← String.toByteArray_append, same]
  rw [← String.toByteArray_inj]
  exact ByteArray.append_inj_left bytes size

theorem cutsAgree {s : Span} {text a b} (first : s.Cuts text a) (second : s.Cuts text b) :
    a = b := by
  obtain ⟨before, behind, whole, place⟩ := first
  obtain ⟨before', behind', whole', place'⟩ := second
  rw [place] at place'
  obtain ⟨start, stop⟩ := Span.mk.inj place'
  have same : (before ++ a) ++ behind = (before' ++ b) ++ behind' := whole.symm.trans whole'
  have size : (before ++ a).utf8ByteSize = (before' ++ b).utf8ByteSize := by
    rw [String.utf8ByteSize_append, String.utf8ByteSize_append, stop]
  have both : before ++ a = before' ++ b := leadingAgree same size
  rw [leadingAgree both start] at both
  exact (String.append_right_inj before').mp both

end Span

namespace Text
open Grammar (stopOf)
open Relabeling (onward)

theorem opensLonger {c behind} (more : List Char) (opens : Opens c behind) :
    Opens c (behind ++ more) := by
  rcases opens with letter | digit | quote | mark | op | ⟨op, d, next, spelled⟩
  · exact .inl letter
  · exact .inr (.inl digit)
  · exact .inr (.inr (.inl quote))
  · exact .inr (.inr (.inr (.inl mark)))
  · exact .inr (.inr (.inr (.inr (.inl op))))
  · refine .inr (.inr (.inr (.inr (.inr ⟨op, d, ?_, spelled⟩))))
    cases behind with
    | nil => contradiction
    | cons e behind => exact next

theorem endsShorter {p : Char → Bool} {behind more : List Char} (ends : Ends p (behind ++ more)) :
    Ends p behind := by
  cases behind with
  | nil =>
    intro d next
    contradiction
  | cons e behind => exact ends

theorem unclosedPlaced {quote : Char} (opens : isQuote quote = true) (pos : Nat)
    (text : List Char) : (placed pos .string text (some (quote :: text))).Unclosed := by
  have one : width [quote] = 1 := by
    rcases quoteChars opens with rfl | rfl | rfl <;> rfl
  have size : width (quote :: text) = width text + 1 := by
    rw [widthCons, one, Nat.add_comm]
  exact ⟨rfl, _, rfl, size⟩

/- Behind a lexeme it matters only which class is not next. -/
theorem Classed.ended {last kind text raw behind after}
    (classed : Classed last kind text raw behind)
    (word : kind.grows = true → Ends isWordPart behind → Ends isWordPart after)
    (number : kind.grows = true → Ends isNumberPart behind → Ends isNumberPart after) :
    Classed last kind text raw after ∨ behind = [] ∧ ∀ pos, (placed pos kind text raw).Unclosed := by
  cases classed with
  | keyword letter parts spelled maximal =>
    exact .inl (.keyword letter parts spelled (word rfl maximal))
  | identifier letter parts free maximal =>
    exact .inl (.identifier letter parts free (word rfl maximal))
  | whole filled digital maximal => exact .inl (.whole filled digital (number rfl maximal))
  | decimal filled digital decimals maximal =>
    exact .inl (.decimal filled digital decimals (number rfl maximal))
  | quoted opens free => exact .inl (.quoted opens free)
  | unclosed opens free => exact .inr ⟨rfl, fun pos => unclosedPlaced opens pos _⟩
  | mark spelled other => exact .inl (.mark spelled other)
  | everything place => exact .inl (.everything place)
  | operator spelled other => exact .inl (.operator spelled other)
  | product place => exact .inl (.product place)

theorem Classed.shorter {last kind text raw behind more}
    (classed : Classed last kind text raw (behind ++ more)) :
    Classed last kind text raw behind := by
  rcases classed.ended (fun _ => endsShorter) (fun _ => endsShorter) with there | ⟨none, _⟩
  · exact there
  · obtain ⟨rfl, rfl⟩ := List.append_eq_nil_iff.mp none
    exact classed

/- Only of a star it matters which token came before. -/
theorem Classed.anywhere {last kind text raw behind} (classed : Classed last kind text raw behind)
    (mark : kind ≠ .punct .asterisk) (op : kind ≠ .operator .mul) (last' : Option Kind) :
    Classed last' kind text raw behind := by
  cases classed with
  | keyword letter parts spelled maximal => exact .keyword letter parts spelled maximal
  | identifier letter parts free maximal => exact .identifier letter parts free maximal
  | whole filled digital maximal => exact .whole filled digital maximal
  | decimal filled digital decimals maximal => exact .decimal filled digital decimals maximal
  | quoted opens free => exact .quoted opens free
  | unclosed opens free => exact .unclosed opens free
  | mark spelled other => exact .mark spelled other
  | everything => contradiction
  | operator spelled other => exact .operator spelled other
  | product => contradiction

theorem scanAnywhere {last pos cs t more} (scans : Scans last pos cs (t :: more))
    (mark : t.kind ≠ .punct .asterisk) (op : t.kind ≠ .operator .mul) (last' : Option Kind) :
    Scans last' pos cs (t :: more) := by
  generalize whole : t :: more = tokens at scans
  induction scans with
  | done => contradiction
  | skip closed next ih => exact .skip closed (ih whole)
  | token classed next =>
    obtain ⟨rfl, rfl⟩ := List.cons.inj whole
    rw [placedKind] at mark op
    exact .token (classed.anywhere mark op last') next

theorem scanBehind {last pos cs before t more} (scans : Scans last pos cs (before ++ t :: more)) :
    ∃ passed left last', cs = passed ++ left ∧ t.span.start = pos + width passed ∧
      Scans last' (pos + width passed) left (t :: more) := by
  generalize whole : before ++ t :: more = tokens at scans
  induction scans generalizing before with
  | done =>
    have empty := (List.append_eq_nil_iff.mp whole).2
    contradiction
  | @skip last pos c cs tokens closed next ih =>
    obtain ⟨passed, left, last', rfl, start, rest⟩ := ih whole
    rw [Nat.add_assoc, ← widthCons] at start rest
    exact ⟨c :: passed, left, last', rfl, start, rest⟩
  | @token last pos kind text raw behind tokens classed next ih =>
    cases before with
    | nil =>
      obtain ⟨rfl, rfl⟩ := List.cons.inj whole
      refine ⟨[], _, last, rfl, ?_, .token classed next⟩
      rw [placedSpan]
      rfl
    | cons u before =>
      obtain ⟨_, rest⟩ := List.cons.inj whole
      obtain ⟨passed, left, last', rfl, start, rest⟩ := ih rest
      rw [Nat.add_assoc, ← widthAppend] at start rest
      exact ⟨raw.getD text ++ passed, left, last', by rw [List.append_assoc], start, rest⟩

theorem scanFront {last pos cs taken rest} (scans : Scans last pos cs (taken ++ rest)) :
    ∃ slice behind, cs = slice ++ behind ∧ stopOf pos taken = pos + width slice ∧
      Scans last pos slice taken := by
  generalize whole : taken ++ rest = tokens at scans
  induction scans generalizing taken with
  | @done last pos =>
    obtain ⟨rfl, _⟩ := List.append_eq_nil_iff.mp whole
    exact ⟨[], [], rfl, rfl, .done⟩
  | @skip last pos c cs tokens closed next ih =>
    cases taken with
    | nil => exact ⟨[], c :: cs, rfl, rfl, .done⟩
    | cons t taken =>
      obtain ⟨slice, behind, rfl, stop, scans⟩ := ih whole
      rw [Nat.add_assoc, ← widthCons] at stop
      refine ⟨c :: slice, behind, rfl, stop, .skip ?_ scans⟩
      intro opens
      exact closed (opensLonger behind opens)
  | @token last pos kind text raw behind tokens classed next ih =>
    cases taken with
    | nil => exact ⟨[], raw.getD text ++ behind, rfl, rfl, .done⟩
    | cons t taken =>
      obtain ⟨rfl, rest⟩ := List.cons.inj whole
      obtain ⟨slice, behind, rfl, stop, scans⟩ := ih rest
      rw [Nat.add_assoc, ← widthAppend] at stop
      refine ⟨raw.getD text ++ slice, behind, by rw [List.append_assoc], ?_, ?_⟩
      · rw [← stop, stopOf, placedSpan]
      · exact .token classed.shorter scans

theorem placedOnward {k pos kind text raw} :
    (onward k).token (placed pos kind text raw) = placed (pos + k) kind text raw := by
  cases raw <;>
    simp [placed, Token.plain, Token.literal, Relabeling.token, Relabeling.span, onward,
      Nat.add_right_comm]

/- A text that starts further on has the same tokens, further on. -/
theorem scanOnward {last k pos cs tokens} (scans : Scans last (pos + k) cs tokens) :
    ∃ tokens', tokens = (onward k).tokens tokens' ∧ Scans last pos cs tokens' := by
  generalize from' : pos + k = start at scans
  induction scans generalizing pos with
  | done => exact ⟨[], rfl, .done⟩
  | @skip last start c cs tokens closed next ih =>
    have further : pos + width [c] + k = start + width [c] := by omega
    obtain ⟨tokens', same, scans⟩ := ih further
    exact ⟨tokens', same, .skip closed scans⟩
  | @token last start kind text raw behind tokens classed next ih =>
    have further : pos + width (raw.getD text) + k = start + width (raw.getD text) := by omega
    obtain ⟨tokens', same, scans⟩ := ih further
    refine ⟨placed pos kind text raw :: tokens', ?_, .token classed scans⟩
    rw [Grammar.tokensCons, placedOnward, from', same]

theorem sliceTokens {text : String} {tokens before : List Token} {t more rest}
    (ok : tokenize text = .ok tokens) (split : tokens = before ++ (t :: more ++ rest))
    (mark : t.kind ≠ .punct .asterisk) (op : t.kind ≠ .operator .mul) :
    ∃ slice tokens', Span.Cuts ⟨t.span.start, stopOf t.span.stop more⟩ text slice ∧
      tokenize slice = .ok tokens' ∧ t :: more = (onward t.span.start).tokens tokens' := by
  subst split
  obtain ⟨passed, left, last, whole, start, scans⟩ := scanBehind (piecesScan ok)
  obtain ⟨slice, behind, rfl, stop, scans⟩ := @scanFront _ _ _ (t :: more) rest scans
  rw [Nat.zero_add] at start stop
  obtain ⟨tokens', same, scans⟩ := scanOnward (scanAnywhere scans mark op none)
  rw [← start] at same
  refine ⟨String.ofList slice, tokens', ?_, ?_, same⟩
  · refine ⟨String.ofList passed, String.ofList behind, ?_, ?_⟩
    · rw [← String.ofList_append, ← String.ofList_append, List.append_assoc, ← whole]
      exact String.ofList_toList.symm
    · have stops : stopOf t.span.stop more = width passed + width slice := stop
      rw [start, stops]
      rfl
  · have chars : (String.ofList slice).toList = slice := String.toList_ofList
    unfold tokenize piecesOf
    rw [chars]
    exact scanPieces scans

end Text

end ScriptTree
