import LiteralSql.Proofs.DollarQuote

/-! The search for a tag.

The candidates are tried one after the other until one is first found at the end
of the text that it is put behind. Each one that is rejected is found before
that, at a dollar sign that no other candidate is found at, so the search ends
after as many candidates as the text has dollar signs at the latest.
-/

set_option autoImplicit false

namespace LiteralSql.DollarQuote

theorem found_early {payload candidate : Text} (rejected : closesOnlyAtEnd payload candidate = false) :
    ∃ early < payload.length, Text.position? candidate (payload ++ candidate) = some early := by
  obtain ⟨early, bound, found⟩ := Text.exists_position?_le candidate payload []
  rw [List.append_nil] at found
  refine ⟨early, Nat.lt_of_le_of_ne bound fun last => ?_, found⟩
  rw [last] at found
  exact of_decide_eq_false rejected found

/-- The search among the numbered candidates, with a counter of 64 bits. It goes on only where the counter
does not overflow. -/
inductive Search (payload : Text) : UInt64 → Text → Prop
  | accept {counter : UInt64} (accepted : closesOnlyAtEnd payload (tag (counter.toNat + 1)) = true) :
      Search payload counter (tag (counter.toNat + 1))
  | reject {counter : UInt64} {result : Text} (rejected : closesOnlyAtEnd payload (tag (counter.toNat + 1)) = false)
      (room : counter.toNat + 1 < UInt64.size) (further : Search payload (counter + 1) result) :
      Search payload counter result

theorem search_of_rejected {payload : Text} {number : Nat} (fits : number < UInt64.size)
    (accepted : closesOnlyAtEnd payload (tag number) = true)
    (rejected : ∀ earlier < number, closesOnlyAtEnd payload (tag earlier) = false) {counter : UInt64}
    (before : counter.toNat < number) : Search payload counter (tag number) := by
  -- The induction is on how many candidates there are still to be rejected.
  induction left : number - (counter.toNat + 1) generalizing counter with
  | zero =>
    have last : number = counter.toNat + 1 := by omega
    rw [last] at accepted ⊢
    exact .accept accepted
  | succ left ih =>
    have further : counter.toNat + 1 < number := by omega
    have room : counter.toNat + 1 < UInt64.size := Nat.lt_trans further fits
    have raised : (counter + 1).toNat = counter.toNat + 1 := by
      rw [UInt64.toNat_add]
      exact Nat.mod_eq_of_lt room
    exact .reject (rejected _ further) room (ih (by rwa [raised]) (by omega))

/-- The tag that is chosen is the first candidate whose first occurrence in front of itself is at the end of the
payload. Each candidate before it comes up early, and there are no more of these than dollar signs. So the search
comes to an end, and no counter overflows that could count the characters. -/
theorem smallest_safe_tag (payload : Text) : ∃ rejected,
    negotiate payload = tag rejected ∧
    Text.position? (tag rejected) (payload ++ tag rejected) = some payload.length ∧
    (∀ number < rejected, ∃ early < payload.length,
      Text.position? (tag number) (payload ++ tag number) = some early) ∧
    rejected ≤ payload.count '$' ∧
    (payload.length < UInt64.size →
      closesOnlyAtEnd payload (tag 0) = true ∨ Search payload 0 (negotiate payload)) := by
  obtain ⟨number, chosen, accepted, rejected⟩ := exists_negotiate_eq_tag payload
  have bound := rejected_le_count rejected
  refine ⟨number, chosen, of_decide_eq_true accepted, fun earlier before => found_early (rejected earlier before),
    bound, fun small => ?_⟩
  rw [chosen]
  cases number with
  | zero => exact .inl accepted
  | succ number =>
    have fits : number + 1 < UInt64.size := Nat.lt_of_le_of_lt (Nat.le_trans bound List.count_le_length) small
    exact .inr (search_of_rejected fits accepted rejected (Nat.succ_pos number))

def crowded : Text := "$cartodb10$cartodb$ and $cartodb1$cartodb0".toList

theorem smallest_safe_tag_crowded : negotiate crowded = "$cartodb2$".toList ∧ crowded.length < UInt64.size ∧
    Search crowded 0 "$cartodb2$".toList := by
  have chosen : negotiate crowded = "$cartodb2$".toList := by decide +kernel
  have small : crowded.length < UInt64.size := by decide
  obtain ⟨-, -, -, -, -, counted⟩ := smallest_safe_tag crowded
  have search := (counted small).resolve_left (by decide)
  rw [chosen] at search
  exact ⟨chosen, small, search⟩

end LiteralSql.DollarQuote
