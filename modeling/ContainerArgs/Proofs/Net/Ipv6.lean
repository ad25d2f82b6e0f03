import ContainerArgs.Net.Ipv6
import ContainerArgs.Proofs.Net.Ipv4

/-!
# IPv6 addresses read back

Groups are read as long as they last, so a written sequence of groups is read
back up to a text at which no group begins.  The double colon stands for the
zeros that it was written for, because what it leaves out is counted from the
groups at its sides.
-/

namespace ContainerArgs.Net.Ipv6

open Number

/-! ## One group -/

def isHex (c : Char) : Bool :=
  (hexValue? c).isSome

/-- The digits of a group. -/
def groupChars (g : UInt16) : List Char :=
  Nat.toDigits 16 g.toNat

theorem isHex_of_isDigit {c : Char} (h : c.isDigit = true) :
    isHex c = true := by
  have hrange : '0' ≤ c ∧ c ≤ '9' := by
    simpa [Char.isDigit, Char.le_def] using h
  rw [isHex, hexValue?, if_pos hrange]
  rfl

theorem isHex_of_mem_groupChars
    {g : UInt16} {c : Char} (hc : c ∈ groupChars g) :
    isHex c = true :=
  hexValue?_of_mem_toDigits hc

theorem readGroup?_groupChars_append
    (g : UInt16) {rest : List Char} (hrest : ∀ c ∈ rest.head?, isHex c = false) :
    readGroup? (groupChars g ++ rest) = some (g, rest) := by
  have htake : (groupChars g ++ rest).takeWhile
      (fun c => (hexValue? c).isSome) = groupChars g :=
    Text.takeWhile_append_of_stop (fun _ => isHex_of_mem_groupChars) hrest
  have hlength : (groupChars g).length ≤ 4 :=
    (Nat.length_toDigits_le_iff (by decide) (by decide)).mpr g.toNat_lt
  rw [readGroup?, htake, if_neg (Nat.not_lt.mpr hlength), groupChars,
    readBase?_toDigits]
  simp

theorem readGroup?_eq_none
    {cs : List Char} (h : ∀ c ∈ cs.head?, isHex c = false) :
    readGroup? cs = none := by
  have htake : cs.takeWhile (fun c => (hexValue? c).isSome) = [] := by
    cases cs with
    | nil => rfl
    | cons c cs =>
        exact List.takeWhile_cons_of_neg (by simpa [isHex] using h c rfl)
  rw [readGroup?, htake]
  rfl

theorem isDigit_eq_false_of_isHex
    {c : Char} (h : isHex c = false) :
    c.isDigit = false := by
  by_contra hdigit
  rw [isHex_of_isDigit (by simpa using hdigit)] at h
  exact absurd h (by decide)

/-- No point follows the digits of a group, so it begins no IPv4 address. -/
theorem head?_dropWhile_ne_point
    {ds rest : List Char} (hds : ∀ c ∈ ds, isHex c = true)
    (hrest : ∀ c ∈ rest.head?, isHex c = false ∧ c ≠ '.') :
    ((ds ++ rest).dropWhile Char.isDigit).head? ≠ some '.' := by
  induction ds with
  | nil =>
      cases rest with
      | nil => simp
      | cons c rest =>
          obtain ⟨hhex, hpoint⟩ := hrest c rfl
          simpa [isDigit_eq_false_of_isHex hhex] using hpoint
  | cons c ds ih =>
      rw [List.cons_append, List.dropWhile_cons]
      split
      next => exact ih fun d hd => hds d (List.mem_cons_of_mem c hd)
      next =>
        have hc := hds c List.mem_cons_self
        intro h
        obtain rfl : c = '.' := by simpa using h
        exact absurd hc (by decide)

/-! ## Sequences of groups -/

/-- Groups with a colon before each. -/
def laterChars (gs : List UInt16) : List Char :=
  gs.flatMap fun g => ':' :: groupChars g

/-- No group begins at a text, be it the first of a sequence or a later one. -/
def Stops (rest : List Char) : Prop :=
  ∀ limit first, readGroups limit first rest = ([], false, rest)

theorem read?_eq_none_of_head
    {cs : List Char} (h : ∀ c ∈ cs.head?, isHex c = false ∧ c ≠ '.') :
    Ipv4.read? cs = none := by
  have hpoint : (([] ++ cs).dropWhile Char.isDigit).head? ≠ some '.' :=
    head?_dropWhile_ne_point (by simp) h
  exact Ipv4.read?_eq_none hpoint

theorem stops_of_head
    {rest : List Char}
    (h : ∀ c ∈ rest.head?, isHex c = false ∧ c ≠ '.' ∧ c ≠ ':') :
    Stops rest := by
  have hcolon : readChar? ':' rest = none :=
    readChar?_eq_none fun hc => (h ':' hc).2.2 rfl
  have hv4 := read?_eq_none_of_head fun c hc => ⟨(h c hc).1, (h c hc).2.1⟩
  have hgroup := readGroup?_eq_none fun c hc => (h c hc).1
  intro limit first
  cases limit with
  | zero => rfl
  | succ limit => cases first <;> simp [readGroups, hcolon, hv4, hgroup]

theorem stops_double_colon (rest : List Char) :
    Stops (':' :: ':' :: rest) := by
  have hhead : ∀ cs : List Char,
      ∀ c ∈ (':' :: cs).head?, isHex c = false ∧ c ≠ '.' := by
    intro cs c hc
    obtain rfl : ':' = c := by simpa using hc
    decide
  have hv4 : ∀ cs, Ipv4.read? (':' :: cs) = none :=
    fun cs => read?_eq_none_of_head (hhead cs)
  have hgroup : ∀ cs, readGroup? (':' :: cs) = none :=
    fun cs => readGroup?_eq_none fun c hc => (hhead cs c hc).1
  intro limit first
  cases limit with
  | zero => rfl
  | succ limit => cases first <;> simp [readGroups, hv4, hgroup]

/-- One group is read, behind its colon if it is not the first. -/
theorem readGroups_succ
    (limit : ℕ) (first : Bool) (g : UInt16) {rest : List Char}
    (hrest : ∀ c ∈ rest.head?, isHex c = false ∧ c ≠ '.') :
    readGroups (limit + 1) first
        (if first then groupChars g ++ rest else ':' :: (groupChars g ++ rest)) =
      (g :: (readGroups limit false rest).1, (readGroups limit false rest).2) := by
  have hv4 : Ipv4.read? (groupChars g ++ rest) = none :=
    Ipv4.read?_eq_none
      (head?_dropWhile_ne_point (fun _ => isHex_of_mem_groupChars) hrest)
  have hgroup := readGroup?_groupChars_append g fun c hc => (hrest c hc).1
  cases first <;> simp [readGroups, hv4, hgroup]

theorem head_laterChars_append
    (gs : List UInt16) {rest : List Char}
    (hrest : ∀ c ∈ rest.head?, isHex c = false ∧ c ≠ '.') :
    ∀ c ∈ (laterChars gs ++ rest).head?, isHex c = false ∧ c ≠ '.' := by
  cases gs with
  | nil => exact hrest
  | cons g gs =>
      intro c hc
      obtain rfl : ':' = c := by simpa [laterChars] using hc
      decide

/-- Groups with a colon before each are read back, within the limit. -/
theorem readGroups_laterChars
    {gs : List UInt16} {limit : ℕ} (hlimit : gs.length ≤ limit)
    {rest : List Char} (hrest : ∀ c ∈ rest.head?, isHex c = false ∧ c ≠ '.')
    (hstop : Stops rest) :
    readGroups limit false (laterChars gs ++ rest) = (gs, false, rest) := by
  -- What follows a group is a colon or the rest, and neither goes on with it.
  induction gs generalizing limit with
  | nil => exact hstop limit false
  | cons g gs ih =>
      obtain ⟨limit, rfl⟩ : ∃ k, limit = k + 1 :=
        ⟨limit - 1, by simp at hlimit; omega⟩
      have hstep := readGroups_succ limit false g
        (head_laterChars_append gs hrest)
      rw [ih (by simpa using hlimit)] at hstep
      simpa [laterChars] using hstep

theorem toList_groupsText_cons (g : UInt16) (gs : List UInt16) :
    (groupsText (g :: gs)).toList = groupChars g ++ laterChars gs := by
  rw [groupsText, List.map_cons, Text.toList_intercalate_cons,
    List.flatMap_map]
  simp [groupChars, laterChars]

/-- A written sequence of groups is read back, within the limit. -/
theorem readGroups_groupsText
    {gs : List UInt16} {limit : ℕ} (hlimit : gs.length ≤ limit)
    {rest : List Char} (hrest : ∀ c ∈ rest.head?, isHex c = false ∧ c ≠ '.')
    (hstop : Stops rest) :
    readGroups limit true ((groupsText gs).toList ++ rest) =
      (gs, false, rest) := by
  cases gs with
  | nil => exact hstop limit true
  | cons g gs =>
      obtain ⟨limit, rfl⟩ : ∃ k, limit = k + 1 :=
        ⟨limit - 1, by simp at hlimit; omega⟩
      have hstep := readGroups_succ limit true g
        (head_laterChars_append gs hrest)
      rw [readGroups_laterChars (by simpa using hlimit) hrest hstop] at hstep
      rw [toList_groupsText_cons, List.append_assoc]
      exact hstep

/-! ## Runs of zeros -/

theorem eq_replicate_zeroRun (gs : List UInt16) :
    gs = List.replicate (zeroRun gs) 0 ++ gs.drop (zeroRun gs) := by
  induction gs with
  | nil => rfl
  | cons g gs ih =>
      by_cases hg : g = 0
      · have hrun : zeroRun (g :: gs) = zeroRun gs + 1 := by
          simp [zeroRun, hg]
        rw [hrun, List.replicate_succ, List.drop_succ_cons, List.cons_append,
          ← ih, hg]
      · have hrun : zeroRun (g :: gs) = 0 := by
          simp [zeroRun, hg]
        simp [hrun]

/-- The longest run is one: there is nothing but zeros where it says. -/
theorem eq_take_longestRun (gs : List UInt16) :
    gs = gs.take (longestRun gs).1 ++
      (List.replicate (longestRun gs).2 0 ++
        gs.drop ((longestRun gs).1 + (longestRun gs).2)) := by
  induction gs with
  | nil => rfl
  | cons g gs ih =>
      rw [longestRun]
      split
      next => simpa using eq_replicate_zeroRun (g :: gs)
      next =>
        rw [Nat.add_right_comm, List.take_succ_cons, List.drop_succ_cons,
          List.cons_append, ← ih]

/-! ## Addresses -/

theorem ofGroups?_groups (ip : Ipv6) :
    ofGroups? ip.groups = some ip :=
  dif_pos ip.length_groups

/-- An address without a double colon. -/
theorem read?_full
    {ip : Ipv6} {rest : List Char}
    (hrest : ∀ c ∈ rest.head?, isHex c = false ∧ c ≠ '.') (hstop : Stops rest) :
    read? ((groupsText ip.groups).toList ++ rest) = some (ip, rest) := by
  have hgroups : readGroups 8 true ((groupsText ip.groups).toList ++ rest) =
      (ip.groups, false, rest) :=
    readGroups_groupsText (Nat.le_of_eq ip.length_groups) hrest hstop
  rw [read?, hgroups]
  simp [ip.length_groups, ofGroups?_groups]

/-- An address with a double colon for the groups that are missing from the two
sequences at its sides. -/
theorem read?_compressed
    {ip : Ipv6} {before after : List UInt16} {k : ℕ} {cs rest : List Char}
    {embedded : Bool} (hk : 1 ≤ k)
    (hgroups : ip.groups = before ++ (List.replicate k 0 ++ after))
    (hafter : readGroups (8 - (before.length + 1)) true cs =
      (after, embedded, rest)) :
    read? ((groupsText before).toList ++ ':' :: ':' :: cs) = some (ip, rest) := by
  -- There are eight groups, so the zeros are what the two sides leave over.
  have hlength : before.length + (k + after.length) = 8 := by
    have := ip.length_groups
    simpa [hgroups] using this
  have hbefore : readGroups 8 true
      ((groupsText before).toList ++ ':' :: ':' :: cs) =
        (before, false, ':' :: ':' :: cs) :=
    readGroups_groupsText (by omega) (by simp; decide) (stops_double_colon cs)
  have hcount : 8 - before.length - after.length = k := by
    omega
  rw [read?, hbefore]
  simp only [readChar?_cons, Option.bind_eq_bind, Option.bind_some, hafter,
    hcount]
  rw [if_neg (by omega), List.append_assoc, ← hgroups, ofGroups?_groups]
  rfl

theorem groups_of_mapped?
    {ip : Ipv6} {v4 : Ipv4} (h : ip.mapped? = some v4) :
    ip.groups = List.replicate 5 0 ++ [0xFFFF,
      (v4.a.toNat * 256 + v4.b.toNat).toUInt16,
      (v4.c.toNat * 256 + v4.d.toNat).toUInt16] := by
  rw [mapped?] at h
  split at h
  next g k hgroups =>
    obtain rfl := Option.some.inj h
    have hg : g.toNat < 65536 := g.toNat_lt
    have hk : k.toNat < 65536 := k.toNat_lt
    have hbytes : ∀ n : UInt16,
        ((n.toNat / 256).toUInt8.toNat * 256 +
          (n.toNat % 256).toUInt8.toNat).toUInt16 = n := by
      intro n
      have hn : n.toNat < 65536 := n.toNat_lt
      have hhigh : n.toNat / 256 % 256 = n.toNat / 256 := by omega
      have hsum : n.toNat / 256 * 256 + n.toNat % 256 = n.toNat := by omega
      simp [hhigh, hsum]
    rw [hgroups, hbytes, hbytes]
    rfl
  next => simp at h

/-- The last two groups may be written as an IPv4 address. -/
theorem readGroups_v4
    {limit : ℕ} (hlimit : 1 ≤ limit) (v4 : Ipv4) {rest : List Char}
    (hrest : ∀ c ∈ rest.head?, c.isDigit = false) :
    readGroups (limit + 1) false (':' :: (v4.text.toList ++ rest)) =
      ([(v4.a.toNat * 256 + v4.b.toNat).toUInt16,
        (v4.c.toNat * 256 + v4.d.toNat).toUInt16], true, rest) := by
  simp [readGroups, hlimit, Ipv4.read?_text_append v4 hrest]

theorem read?_mapped
    {ip : Ipv6} {v4 : Ipv4} (hmapped : ip.mapped? = some v4)
    {rest : List Char} (hrest : ∀ c ∈ rest.head?, c.isDigit = false) :
    read? (("::ffff:" ++ v4.text).toList ++ rest) = some (ip, rest) := by
  have hshape : ("::ffff:" ++ v4.text).toList ++ rest =
      (groupsText []).toList ++ ':' :: ':' ::
        (groupChars 0xFFFF ++ ':' :: (v4.text.toList ++ rest)) := by
    simp [groupsText, show groupChars 0xFFFF = ['f', 'f', 'f', 'f'] from rfl]
  have hcolon : ∀ c ∈ (':' :: (v4.text.toList ++ rest)).head?,
      isHex c = false ∧ c ≠ '.' := by
    simp
    decide
  have hfirst := readGroups_succ 6 true 0xFFFF hcolon
  rw [readGroups_v4 (by omega) v4 hrest] at hfirst
  rw [hshape]
  exact read?_compressed (show 1 ≤ 5 by decide) (groups_of_mapped? hmapped) hfirst

/-- The text of an address is read as the address, up to what follows it. -/
theorem read?_text_append
    (ip : Ipv6) {rest : List Char}
    (h : ∀ c ∈ rest.head?, isHex c = false ∧ c ≠ '.' ∧ c ≠ ':') :
    read? (ip.text.toList ++ rest) = some (ip, rest) := by
  have hrest : ∀ c ∈ rest.head?, isHex c = false ∧ c ≠ '.' :=
    fun c hc => ⟨(h c hc).1, (h c hc).2.1⟩
  have hstop := stops_of_head h
  rw [text]
  split
  next v4 hmapped =>
    exact read?_mapped hmapped fun c hc => isDigit_eq_false_of_isHex (h c hc).1
  next =>
    dsimp only
    split
    next hrun =>
      have hsplit := eq_take_longestRun ip.groups
      have hlength : (ip.groups.drop
          ((longestRun ip.groups).1 + (longestRun ip.groups).2)).length ≤
            8 - ((ip.groups.take (longestRun ip.groups).1).length + 1) := by
        have := congrArg List.length hsplit
        rw [ip.length_groups, List.length_append, List.length_append,
          List.length_replicate] at this
        omega
      have htail := readGroups_groupsText hlength hrest hstop
      have hread := read?_compressed (Nat.le_of_lt hrun) hsplit htail
      simpa using hread
    next => exact read?_full hrest hstop

end ContainerArgs.Net.Ipv6
