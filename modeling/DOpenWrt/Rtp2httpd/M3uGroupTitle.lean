import DOpenWrt.Rtp2httpd.M3u

/-!
# The name of an entry in its buffers

How an `#EXTINF` line makes a name of a group and a base name, with the buffer of the group written out. The index at
which the group is cut is a difference of `size_t`.
-/

namespace Rtp2httpd
open CString

/-- Where the group is cut to leave room for the base name, if the two do not fit. -/
def maxGroupLen (groupLen baseLen : Nat) : Option Nat :=
  if MAX_SERVICE_NAME ≤ groupLen + 1 + baseLen then
    some (BitVec.ofNat 64 MAX_SERVICE_NAME - BitVec.ofNat 64 baseLen - 2).toNat
  else none

/-- `group_title[index] = '\0'`, with an index outside the buffer for the error. -/
def cutGroupTitle (groupTitle : List UInt8) (index : Nat) : Except Nat (List UInt8) :=
  if index < MAX_SERVICE_NAME then .ok (groupTitle.take index) else .error index

/-- `snprintf` of both, or the base name alone. -/
def formatEntryName (groupTitle baseName : List UInt8) : List UInt8 :=
  let name := groupTitle ++ str "/" ++ baseName
  if MAX_SERVICE_NAME ≤ name.length then fit MAX_SERVICE_NAME baseName else name

def buildEntryName (groupTitle baseName : List UInt8) : Except Nat (List UInt8) :=
  match maxGroupLen groupTitle.length baseName.length with
  | none => .ok (formatEntryName groupTitle baseName)
  | some index => (cutGroupTitle groupTitle index).map (formatEntryName · baseName)

/-- The name of the entry of a line, as far as the line has a base name. -/
def extinfName (line : List UInt8) : Option (Except Nat (List UInt8)) :=
  (extractServiceName line MAX_SERVICE_NAME).map fun baseName =>
    match extractAttribute line (str "group-title") MAX_SERVICE_NAME with
    | none | some [] => .ok (fit MAX_SERVICE_NAME baseName)
    | some groupTitle => buildEntryName groupTitle baseName

variable {groupTitle baseName line : List UInt8}

theorem maxGroupLen_eq (h : baseName.length + 2 ≤ MAX_SERVICE_NAME)
    (hlong : MAX_SERVICE_NAME ≤ groupTitle.length + 1 + baseName.length) :
    maxGroupLen groupTitle.length baseName.length = some (MAX_SERVICE_NAME - baseName.length - 2) := by
  have hsize : MAX_SERVICE_NAME = 256 := rfl
  unfold maxGroupLen
  rw [if_pos hlong, hsize]
  congr 1
  bv_omega

theorem formatEntryName_suffix (h : groupTitle.length + 1 + baseName.length < MAX_SERVICE_NAME) :
    formatEntryName groupTitle baseName = groupTitle ++ str "/" ++ baseName ∧
      (formatEntryName groupTitle baseName).length < MAX_SERVICE_NAME := by
  have hlength : (groupTitle ++ str "/" ++ baseName).length = groupTitle.length + 1 + baseName.length := by
    rw [List.length_append, List.length_append]
    rfl
  have heq : formatEntryName groupTitle baseName = groupTitle ++ str "/" ++ baseName :=
    if_neg (by rw [hlength]; exact Nat.not_le_of_lt h)
  exact ⟨heq, by rw [heq, hlength]; exact h⟩

/-- The index of the cut lies inside the buffer, the base name leaves room for a slash and the end, and the name ends
with the slash and the base name. -/
structure NameInBounds (groupTitle baseName : List UInt8) : Prop where
  index : ∀ index, maxGroupLen groupTitle.length baseName.length = some index → index < MAX_SERVICE_NAME
  baseLen : baseName.length + 2 ≤ MAX_SERVICE_NAME
  name : ∃ name, buildEntryName groupTitle baseName = .ok name ∧ name.length < MAX_SERVICE_NAME ∧
    str "/" ++ baseName <:+ name

theorem nameInBounds (h : baseName.length + 2 ≤ MAX_SERVICE_NAME) : NameInBounds groupTitle baseName := by
  by_cases hlong : MAX_SERVICE_NAME ≤ groupTitle.length + 1 + baseName.length
  · -- the group is cut
    have hindex := maxGroupLen_eq h hlong
    have hlt : MAX_SERVICE_NAME - baseName.length - 2 < MAX_SERVICE_NAME := by
      have : 0 < MAX_SERVICE_NAME := by decide
      omega
    have hcut : (groupTitle.take (MAX_SERVICE_NAME - baseName.length - 2)).length + 1 + baseName.length <
        MAX_SERVICE_NAME := by
      rw [List.length_take]
      omega
    obtain ⟨heq, hlength⟩ := formatEntryName_suffix hcut
    refine ⟨fun index hi => ?_, h, _, ?_, hlength, ?_⟩
    · rw [hindex] at hi
      cases hi
      exact hlt
    · rw [buildEntryName, hindex]
      dsimp only
      rw [cutGroupTitle, if_pos hlt]
      rfl
    · rw [heq, List.append_assoc]
      exact List.suffix_append _ _
  · have hnone : maxGroupLen groupTitle.length baseName.length = none := if_neg hlong
    obtain ⟨heq, hlength⟩ := formatEntryName_suffix (Nat.lt_of_not_le hlong)
    refine ⟨fun index hi => ?_, h, _, ?_, hlength, ?_⟩
    · rw [hnone] at hi
      cases hi
    · rw [buildEntryName, hnone]
    · rw [heq, List.append_assoc]
      exact List.suffix_append _ _

/-- The name in the buffers is the name of `parse_extinf`. -/
theorem entryName_of_buildEntryName {name : List UInt8} (hgroup : groupTitle ≠ [])
    (h : buildEntryName groupTitle baseName = .ok name) (hbase : baseName.length + 2 ≤ MAX_SERVICE_NAME) :
    entryName (some groupTitle) baseName = name := by
  have hentry : entryName (some groupTitle) baseName = formatEntryName
      (if MAX_SERVICE_NAME ≤ groupTitle.length + 1 + baseName.length ∧ baseName.length + 2 ≤ MAX_SERVICE_NAME then
        groupTitle.take (MAX_SERVICE_NAME - baseName.length - 2)
      else groupTitle) baseName := by
    cases groupTitle with
    | nil => exact absurd rfl hgroup
    | cons c groupTitle => rfl
  rw [hentry]
  by_cases hlong : MAX_SERVICE_NAME ≤ groupTitle.length + 1 + baseName.length
  · have hlt : MAX_SERVICE_NAME - baseName.length - 2 < MAX_SERVICE_NAME := by
      have : 0 < MAX_SERVICE_NAME := by decide
      omega
    rw [buildEntryName, maxGroupLen_eq hbase hlong] at h
    dsimp only at h
    rw [cutGroupTitle, if_pos hlt] at h
    rw [if_pos ⟨hlong, hbase⟩]
    exact Except.ok.inj h
  · rw [buildEntryName, maxGroupLen, if_neg hlong] at h
    rw [if_neg fun hcut => hlong hcut.1]
    exact Except.ok.inj h

/-- A line with a title and a group keeps within the buffers exactly when the title, cut to its buffer and trimmed, has
room for a slash. -/
theorem extinfName_inBounds_iff (line : List UInt8) :
    (∀ baseName groupTitle, extractServiceName line MAX_SERVICE_NAME = some baseName →
      extractAttribute line (str "group-title") MAX_SERVICE_NAME = some groupTitle → groupTitle ≠ [] →
      NameInBounds groupTitle baseName ∧ ∃ name, extinfName line = some (.ok name) ∧
        buildEntryName groupTitle baseName = .ok name ∧ (parseExtinf line).map M3uExtinf.name = some name) ↔
    ∀ baseName, extractServiceName line MAX_SERVICE_NAME = some baseName →
      (extractAttribute line (str "group-title") MAX_SERVICE_NAME).getD [] ≠ [] → baseName.length ≤ 254 := by
  constructor
  · intro h baseName hbase hgroup
    cases hattr : extractAttribute line (str "group-title") MAX_SERVICE_NAME with
    | none =>
      rw [hattr] at hgroup
      exact absurd rfl hgroup
    | some groupTitle =>
      rw [hattr] at hgroup
      exact Nat.le_of_add_le_add_right (h baseName groupTitle hbase hattr hgroup).1.baseLen
  · intro h baseName groupTitle hbase hattr hgroup
    have hlen : baseName.length + 2 ≤ MAX_SERVICE_NAME := by
      have := h baseName hbase (by rwa [hattr])
      exact Nat.add_le_add_right this 2
    have hname := @nameInBounds groupTitle baseName hlen
    obtain ⟨name, hbuild, -, -⟩ := hname.name
    refine ⟨hname, name, ?_, hbuild, ?_⟩
    · rw [extinfName, hbase, hattr, Option.map_some]
      congr 1
      split
      · next heq => cases heq
      · next heq => exact absurd (Option.some.inj heq) hgroup
      · next heq =>
        cases heq
        exact hbuild
    · rw [parseExtinf, hbase, Option.map_some, Option.map_some, hattr]
      exact congrArg some (entryName_of_buildEntryName hgroup hbuild hlen)

/-- A title that fills its buffer. -/
def longTitleLine : List UInt8 := str "#EXTINF:-1 group-title=\"g\"," ++ List.replicate 255 97

theorem extinfName_index_wraps :
    ¬ ∀ (line baseName groupTitle : List UInt8), line.length ≤ MAX_M3U_LINE →
      extractServiceName line MAX_SERVICE_NAME = some baseName →
      extractAttribute line (str "group-title") MAX_SERVICE_NAME = some groupTitle → groupTitle ≠ [] →
      NameInBounds groupTitle baseName := by
  intro h
  have := (h longTitleLine (List.replicate 255 97) (str "g") (by decide +kernel) (by decide +kernel) (by decide +kernel)
    (by decide +kernel)).index (2 ^ 64 - 1) (by decide +kernel)
  exact absurd this (by decide +kernel)

end Rtp2httpd
