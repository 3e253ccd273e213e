import DepositSync.Vendor.Settings

/-!
# DepositSync.Proofs.ClientAddress

Where a client's net worth is asked for. The template of the address is cut at its placeholders, the
first one first and each of the others after the end of the one before (`Splits`), and the client is
put in between the pieces (`Splits.substitute`). So what the client brings in, or completes together
with a piece, is never taken for a placeholder.

A template can be cut in exactly one way. If there is a placeholder, the address tells how long the
client is, since all clients are put in equally often, and the client stands after the first piece
(`intercalate_injective`): no two clients have the same address.
-/

namespace DepositSync

namespace VendorSettings

variable {piece rest piece' rest' template : List Char} {pieces pieces' : List (List Char)}

theorem placeholder_ne_nil : placeholder ≠ [] := List.cons_ne_nil _ _

/-! ### Cutting a template -/

/-- The placeholder between a piece and the rest is the first one of the whole. -/
def FirstAfter (piece rest : List Char) : Prop :=
  ∀ front back, piece ++ placeholder ++ rest = front ++ placeholder ++ back →
    piece.length ≤ front.length

/-- The pieces of a template between its placeholders, which are taken from left to right. -/
inductive Splits : List Char → List (List Char) → Prop where
  /-- A template without a placeholder is one piece. -/
  | whole {template : List Char} : ¬placeholder <:+: template → Splits template [template]
  /-- What is before the first placeholder is a piece, and what is after it is cut in turn. -/
  | first {template piece rest : List Char} {pieces : List (List Char)} :
      template = piece ++ placeholder ++ rest → FirstAfter piece rest → Splits rest pieces →
      Splits template (piece :: pieces)

theorem firstAfter_nil (rest : List Char) : FirstAfter [] rest :=
  fun _ _ _ => Nat.zero_le _

theorem firstAfter_cons {c : Char} :
    FirstAfter (c :: piece) rest ↔
      ¬placeholder <+: c :: (piece ++ placeholder ++ rest) ∧ FirstAfter piece rest := by
  constructor
  · intro h
    constructor
    · rintro ⟨back, hback⟩
      exact absurd (h [] back hback.symm) (by simp)
    · intro front back heq
      have hle := h (c :: front) back (congrArg (c :: ·) heq)
      exact Nat.le_of_succ_le_succ hle
  · rintro ⟨hhead, h⟩ front back heq
    cases front with
    | nil => exact absurd ⟨back, heq.symm⟩ hhead
    | cons d front => exact Nat.succ_le_succ (h front back (List.cons.inj heq).2)

/-- The first placeholder is in one place. -/
theorem FirstAfter.unique (h : FirstAfter piece rest) (h' : FirstAfter piece' rest')
    (heq : piece ++ placeholder ++ rest = piece' ++ placeholder ++ rest') :
    piece = piece' ∧ rest = rest' := by
  have hlength : piece.length = piece'.length :=
    Nat.le_antisymm (h piece' rest' heq) (h' piece rest heq.symm)
  rw [List.append_assoc, List.append_assoc] at heq
  obtain ⟨hpiece, hrest⟩ := List.append_inj heq hlength
  exact ⟨hpiece, List.append_cancel_left hrest⟩

/-- Where there is a placeholder, there is a first one. -/
theorem exists_firstAfter (h : placeholder <:+: template) :
    ∃ piece rest, template = piece ++ placeholder ++ rest ∧ FirstAfter piece rest := by
  induction template with
  | nil => exact absurd (List.infix_nil.mp h) placeholder_ne_nil
  | cons c cs ih =>
      by_cases hhead : placeholder <+: c :: cs
      · obtain ⟨rest, hrest⟩ := hhead
        exact ⟨[], rest, hrest.symm, firstAfter_nil rest⟩
      · obtain ⟨piece, rest, rfl, hfirst⟩ := ih ((List.infix_cons_iff.mp h).resolve_left hhead)
        exact ⟨c :: piece, rest, rfl, firstAfter_cons.mpr ⟨hhead, hfirst⟩⟩

theorem exists_splits (template : List Char) : ∃ pieces, Splits template pieces := by
  by_cases h : placeholder <:+: template
  · obtain ⟨piece, rest, heq, hfirst⟩ := exists_firstAfter h
    obtain ⟨pieces, hrest⟩ := exists_splits rest
    exact ⟨piece :: pieces, .first heq hfirst hrest⟩
  · exact ⟨[template], .whole h⟩
termination_by template.length
decreasing_by
  have := List.length_pos_iff.mpr placeholder_ne_nil
  simp only [heq, List.length_append]
  omega

namespace Splits

theorem ne_nil (h : Splits template pieces) : pieces ≠ [] := by
  cases h <;> exact List.cons_ne_nil _ _

theorem unique (h : Splits template pieces) (h' : Splits template pieces') : pieces = pieces' := by
  induction h generalizing pieces' with
  | whole hnone =>
      cases h' with
      | whole => rfl
      | first heq => exact absurd (heq ▸ List.infix_append ..) hnone
  | first heq hfirst _ ih =>
      cases h' with
      | whole hnone => exact absurd (heq ▸ List.infix_append ..) hnone
      | first heq' hfirst' hrest' =>
          obtain ⟨rfl, rfl⟩ := hfirst.unique hfirst' (heq.symm.trans heq')
          rw [ih hrest']

/-- The pieces with the placeholder in between are the template. -/
theorem intercalate_placeholder (h : Splits template pieces) :
    placeholder.intercalate pieces = template := by
  induction h with
  | whole => exact List.intercalate_singleton
  | first heq _ hrest ih => rw [List.intercalate_cons_of_ne_nil hrest.ne_nil, ih, heq]

/-- There is more than one piece exactly if there is a placeholder. -/
theorem one_lt_length_iff (h : Splits template pieces) :
    1 < pieces.length ↔ placeholder <:+: template := by
  cases h with
  | whole hnone => simp [hnone]
  | first heq _ hrest =>
      have hpos := List.length_pos_iff.mpr hrest.ne_nil
      simp [heq, hpos]

end Splits

/-! ### Putting the client in -/

section

variable (client : List Char)

/-- Characters that are passed over leave no trace. -/
theorem substitute_skip (skip : Nat) (cs : List Char) :
    substitute client skip cs = substitute client 0 (cs.drop skip) := by
  induction cs generalizing skip with
  | nil => cases skip <;> rfl
  | cons c cs ih =>
      cases skip with
      | zero => rfl
      | succ skip => rw [substitute, ih, List.drop_succ_cons]

/-- A placeholder gives way to the client, and what follows it is searched. -/
theorem substitute_placeholder (rest : List Char) :
    substitute client 0 (placeholder ++ rest) = client ++ substitute client 0 rest := by
  obtain ⟨c, cs, hcs⟩ : ∃ c cs, placeholder = c :: cs :=
    List.exists_cons_of_ne_nil placeholder_ne_nil
  have hhead : placeholder.isPrefixOf (c :: (cs ++ rest)) = true :=
    List.isPrefixOf_iff_prefix.mpr ⟨rest, by rw [hcs, List.cons_append]⟩
  have hrest : (cs ++ rest).drop (placeholder.length - 1) = rest := by simp [hcs]
  rw [hcs, List.cons_append, substitute, if_pos hhead, substitute_skip, hrest]

variable {client}

/-- A character at which no placeholder starts is kept. -/
theorem substitute_cons {c : Char} {cs : List Char} (h : ¬placeholder <+: c :: cs) :
    substitute client 0 (c :: cs) = c :: substitute client 0 cs := by
  rw [substitute, if_neg (mt List.isPrefixOf_iff_prefix.mp h)]

theorem substitute_of_absent {cs : List Char} (h : ¬placeholder <:+: cs) :
    substitute client 0 cs = cs := by
  induction cs with
  | nil => rfl
  | cons c cs ih =>
      rw [List.infix_cons_iff, not_or] at h
      rw [substitute_cons h.1, ih h.2]

theorem FirstAfter.substitute (h : FirstAfter piece rest) :
    substitute client 0 (piece ++ placeholder ++ rest) =
      piece ++ client ++ substitute client 0 rest := by
  induction piece with
  | nil => exact substitute_placeholder client rest
  | cons c piece ih =>
      obtain ⟨hhead, hfirst⟩ := firstAfter_cons.mp h
      exact (substitute_cons hhead).trans (congrArg (c :: ·) (ih hfirst))

/-- The address is the pieces with the client in between. -/
theorem Splits.substitute (h : Splits template pieces) :
    substitute client 0 template = client.intercalate pieces := by
  induction h with
  | whole hnone => rw [substitute_of_absent hnone, List.intercalate_singleton]
  | first heq hfirst hrest ih =>
      rw [heq, hfirst.substitute, ih, List.intercalate_cons_of_ne_nil hrest.ne_nil]

end

/-! ### Telling clients apart -/

/-- So long are pieces with a text in between. -/
theorem length_intercalate (sep piece : List Char) (pieces : List (List Char)) :
    (sep.intercalate (piece :: pieces)).length =
      (piece :: pieces).flatten.length + pieces.length * sep.length := by
  induction pieces generalizing piece with
  | nil => simp
  | cons next pieces ih =>
      rw [List.intercalate_cons_cons, List.length_append, ih]
      simp only [List.flatten_cons, List.length_append, List.length_cons, Nat.add_mul]
      omega

/-- Between two pieces or more, different texts give different results. -/
theorem intercalate_injective (h : 1 < pieces.length) :
    Function.Injective fun sep : List Char => sep.intercalate pieces := by
  match pieces, h with
  | piece :: next :: pieces, _ =>
    intro sep sep' heq
    have hlength :
        (next :: pieces).length * sep.length = (next :: pieces).length * sep'.length := by
      simpa only [length_intercalate, Nat.add_left_cancel_iff] using congrArg List.length heq
    -- the texts are equally long, and both stand after the first piece
    simp only [List.intercalate_cons_cons, List.append_assoc] at heq
    exact List.append_inj_left (List.append_cancel_left heq)
      (Nat.eq_of_mul_eq_mul_left (Nat.succ_pos _) hlength)

theorem toList_netWorthUrlFor {s : VendorSettings} (h : Splits s.netWorthUrl.toList pieces)
    (client : String) :
    (s.netWorthUrlFor client).toList = client.toList.intercalate pieces := by
  rw [netWorthUrlFor, String.toList_ofList, h.substitute]

theorem netWorthUrlFor_of_absent {s : VendorSettings}
    (h : ¬placeholder <:+: s.netWorthUrl.toList) (client : String) :
    s.netWorthUrlFor client = s.netWorthUrl := by
  rw [netWorthUrlFor, substitute_of_absent h, String.ofList_toList]

theorem netWorthUrlFor_injective {s : VendorSettings}
    (h : placeholder <:+: s.netWorthUrl.toList) : Function.Injective s.netWorthUrlFor := by
  obtain ⟨pieces, hsplits⟩ := exists_splits s.netWorthUrl.toList
  intro client client' heq
  have htexts := congrArg String.toList heq
  rw [toList_netWorthUrlFor hsplits, toList_netWorthUrlFor hsplits] at htexts
  exact String.toList_inj.mp (intercalate_injective (hsplits.one_lt_length_iff.mpr h) htexts)

/-- **Two clients never share an address.** A template is cut in exactly one way into the pieces
between its placeholders, taken from left to right, and the address is these pieces with the client
in between, whatever stands in the client or comes about where it is put in. Any two clients have
different addresses exactly if there is a placeholder in the template. -/
theorem addresses_tell_clients_apart (s : VendorSettings) :
    (∃ pieces, (∀ other, Splits s.netWorthUrl.toList other ↔ other = pieces) ∧
      s.netWorthUrl.toList = placeholder.intercalate pieces ∧
      ∀ client, (s.netWorthUrlFor client).toList = client.toList.intercalate pieces) ∧
    (Function.Injective s.netWorthUrlFor ↔ placeholder <:+: s.netWorthUrl.toList) := by
  constructor
  · obtain ⟨pieces, hsplits⟩ := exists_splits s.netWorthUrl.toList
    refine ⟨pieces, fun other => ⟨fun h => h.unique hsplits, fun h => h ▸ hsplits⟩, ?_, ?_⟩
    · exact hsplits.intercalate_placeholder.symm
    · exact toList_netWorthUrlFor hsplits
  · constructor
    · intro hinjective
      by_cases h : placeholder <:+: s.netWorthUrl.toList
      · exact h
      · have hsame : s.netWorthUrlFor "" = s.netWorthUrlFor "a" := by
          rw [netWorthUrlFor_of_absent h, netWorthUrlFor_of_absent h]
        exact absurd (hinjective hsame) (by decide)
    · exact netWorthUrlFor_injective

/-- A placeholder that comes about where the client is put in stays as it is. -/
example :
    { standard with netWorthUrl := "\x7bpc\x7bpci\x7d/\x7bpci\x7d" }.netWorthUrlFor "i\x7d" =
      "\x7bpci\x7d/i\x7d" := by
  decide

end VendorSettings

end DepositSync
