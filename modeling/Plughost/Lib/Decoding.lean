import Mathlib.Data.List.Basic

/-! Decoders that take a value off the front of a list, and when such a decoder
undoes an encoding. Nothing here names a program. -/
namespace Plughost.Decoding
variable {β α γ : Type}

abbrev Decoder (β α : Type) := StateT (List β) Option α

/-- In front of anything, `bytes` decode to `a`, and what follows is left. -/
def Reads (d : Decoder β α) (bytes : List β) (a : α) : Prop := ∀ rest, d.run (bytes ++ rest) = some (a, rest)

/-- The value of a list that is decoded to its end. -/
def decode (d : Decoder β α) (bytes : List β) : Option α :=
  match d.run bytes with
  | some (a, []) => some a
  | _ => none

/-- The first element. -/
def item : Decoder β β := fun
  | [] => none
  | b :: rest => some (b, rest)

/-- The first `n` elements. -/
def items (n : Nat) : Decoder β (List β) := fun bytes =>
  if bytes.length < n then none else some (bytes.take n, bytes.drop n)

/-- `n` values, one after the other. -/
def times (d : Decoder β α) : Nat → Decoder β (List α)
  | 0 => pure []
  | n + 1 => do
    let a ← d
    let as ← times d n
    pure (a :: as)

theorem Reads.decode {d : Decoder β α} {bytes : List β} {a : α} (h : Reads d bytes a) : decode d bytes = some a := by
  have hall := h []
  rw [List.append_nil] at hall
  rw [Decoding.decode, hall]

theorem Reads.pure (a : α) : Reads (Pure.pure a : Decoder β α) [] a := fun _ => rfl

theorem Reads.bind {d : Decoder β α} {f : α → Decoder β γ} {front back : List β} {a : α} {c : γ}
    (h : Reads d front a) (hf : Reads (f a) back c) : Reads (d >>= f) (front ++ back) c := by
  intro rest
  rw [StateT.run_bind, List.append_assoc, h]
  exact hf rest

/-- The last value of a sequence, of which the whole is made. -/
theorem Reads.bind_pure {d : Decoder β α} {bytes : List β} {a : α} (h : Reads d bytes a) (g : α → γ) :
    Reads (d >>= fun a => Pure.pure (g a)) bytes (g a) := by
  have hall := h.bind (f := fun a => Pure.pure (g a)) (Reads.pure (g a))
  rw [List.append_nil] at hall
  exact hall

theorem reads_item (b : β) : Reads item [b] b := fun _ => rfl

theorem reads_items (bytes : List β) : Reads (items bytes.length) bytes bytes := by
  intro rest
  change (if (bytes ++ rest).length < bytes.length then none else some ((bytes ++ rest).take bytes.length,
    (bytes ++ rest).drop bytes.length)) = some (bytes, rest)
  rw [if_neg (by rw [List.length_append]; omega), List.take_left, List.drop_left]

/-- A decoder that undoes the encoding of each element undoes the list's. -/
theorem reads_times {d : Decoder β α} {enc : α → List β} {as : List α} (h : ∀ a ∈ as, Reads d (enc a) a) :
    Reads (times d as.length) (as.flatMap enc) as := by
  induction as with
  | nil => exact Reads.pure []
  | cons a as ih =>
    rw [List.forall_mem_cons] at h
    exact h.1.bind ((ih h.2).bind_pure (a :: ·))

end Plughost.Decoding
