import DOpenWrt.Lib.GaussJordan
import DOpenWrt.Rtp2httpd.Gf256

/-!
# The Reed–Solomon erasure coder (`rs_fec.c`)

Matrices are indexed by `Fin`, so that a loop bound is the index type. The `calloc`s of this file
are taken to succeed; `rtp_fec.c`, the only caller, treats their failure like any other failure of
the call.
-/

namespace Rtp2httpd
open Matrix

variable {k m n : Nat}

/-- `if (a && b) acc ^= rs_exp[(rs_log[a] + rs_log[b]) % RS_SIZE]`. -/
def xorMul (acc a b : UInt8) : UInt8 :=
  if a ≠ 0 ∧ b ≠ 0 then acc ^^^ rsExp ((rsLog a + rsLog b) % 255) else acc

/-! ### `matrix_inv_gf256` -/

/-- The best pivot seen so far by the search loops. -/
structure Pivot (n : Nat) where
  big : UInt8
  irow : Fin n
  icol : Fin n

/-- The body of the search's inner loop, at row `j` and column `c`. -/
def pivotCell (matrix : Matrix (Fin n) (Fin n) UInt8) (ipiv : Fin n → Nat) (j : Fin n) (p : Pivot n)
    (c : Fin n) : Option (Pivot n) :=
  if ipiv c = 0 then
    if matrix j c ≥ p.big then some ⟨matrix j c, j, c⟩ else some p
  else if ipiv c > 1 then none
  else some p

/-- The body of the search's outer loop, at row `j`. -/
def pivotRow (matrix : Matrix (Fin n) (Fin n) UInt8) (ipiv : Fin n → Nat) (p : Pivot n) (j : Fin n) :
    Option (Pivot n) :=
  if ipiv j ≠ 1 then (List.finRange n).foldlM (pivotCell matrix ipiv j) p else some p

/-- The pivot search; `irow` and `icol` keep their values from the round before. -/
def findPivot (matrix : Matrix (Fin n) (Fin n) UInt8) (ipiv : Fin n → Nat) (irow icol : Fin n) :
    Option (Pivot n) :=
  (List.finRange n).foldlM (pivotRow matrix ipiv) ⟨0, irow, icol⟩

/-- `matrix[c][c] = 1`, then row `c` times the element with logarithm `pivinv`. -/
def scaleRow (c : Fin n) (pivinv : Nat) (matrix : Matrix (Fin n) (Fin n) UInt8) :
    Matrix (Fin n) (Fin n) UInt8 := of fun i j =>
  if i = c then
    let x := if j = c then 1 else matrix c j
    if x ≠ 0 then rsExp ((rsLog x + pivinv) % 255) else x
  else matrix i j

/-- The elimination loop: every other row `i` loses `dum = matrix[i][c]` times row `c`. -/
def clearCol (c : Fin n) (matrix : Matrix (Fin n) (Fin n) UInt8) : Matrix (Fin n) (Fin n) UInt8 :=
  of fun i j =>
    if i = c then matrix i j
    else xorMul (if j = c then 0 else matrix i j) (matrix c j) (matrix i c)

/-- The state of `matrix_inv_gf256` between rounds; `swaps` lists `(indxr[l], indxc[l])`. -/
structure InvState (n : Nat) where
  matrix : Matrix (Fin n) (Fin n) UInt8
  ipiv : Fin n → Nat
  irow : Fin n
  icol : Fin n
  swaps : List (Fin n × Fin n)

/-- `if (irow != icol)` swap the two rows. -/
def swapPivotRow (irow icol : Fin n) (matrix : Matrix (Fin n) (Fin n) UInt8) :
    Matrix (Fin n) (Fin n) UInt8 :=
  if irow ≠ icol then GaussJordan.swapRows irow icol matrix else matrix

/-- `if (indxr[l] != indxc[l])` swap the two columns. -/
def swapPivotCol (indxr indxc : Fin n) (matrix : Matrix (Fin n) (Fin n) UInt8) :
    Matrix (Fin n) (Fin n) UInt8 :=
  if indxr ≠ indxc then GaussJordan.swapCols indxr indxc matrix else matrix

/-- One round of the main loop. -/
def invRound (s : InvState n) : Option (InvState n) :=
  match findPivot s.matrix s.ipiv s.irow s.icol with
  | none => none
  | some ⟨_, irow, icol⟩ =>
    let ipiv := Function.update s.ipiv icol (s.ipiv icol + 1)
    let matrix := swapPivotRow irow icol s.matrix
    if matrix icol icol = 0 then none
    else
      let pivinv := 255 - rsLog (matrix icol icol)
      some ⟨clearCol icol (scaleRow icol pivinv matrix), ipiv, irow, icol, s.swaps ++ [(irow, icol)]⟩

def invLoop : Nat → InvState n → Option (InvState n)
  | 0, s => some s
  | i + 1, s => match invRound s with
    | none => none
    | some s => invLoop i s

/-- The final loop: the recorded swaps undone on the columns, the last one first. -/
def unscramble (s : InvState n) : Matrix (Fin n) (Fin n) UInt8 :=
  s.swaps.foldr (fun p matrix => swapPivotCol p.1 p.2 matrix) s.matrix

def matrixInvGf256 (matrix : Matrix (Fin n) (Fin n) UInt8) : Option (Matrix (Fin n) (Fin n) UInt8) :=
  if h : n ≥ 0x100 ∨ n = 0 then none
  else
    let z : Fin n := ⟨0, by omega⟩
    (invLoop n ⟨matrix, fun _ => 0, z, z, []⟩).map unscramble

/-- `c[i][j]` of `matrix_mul_gf256`, starting from the zeroed `c`. -/
def matrixMulGf256 (a : Matrix (Fin m) (Fin n) UInt8) (b : Matrix (Fin n) (Fin k) UInt8) :
    Matrix (Fin m) (Fin k) UInt8 :=
  of fun i j => (List.finRange n).foldl (fun acc l => xorMul acc (a i l) (b l j)) 0

/-! ### `rs_fec_new` -/

def fecG0K100 : List UInt8 := [
  0x20, 0x85, 0x89, 0xdf, 0xd0, 0x65, 0xb2, 0xf4, 0x44, 0x56, 0x3f, 0x25, 0x73, 0x51, 0x48, 0x62, 0x75,
  0x74, 0x91, 0x7d, 0xfa, 0xaf, 0x25, 0x9d, 0xdf, 0x9b, 0x94, 0xc7, 0x53, 0x65, 0xa0, 0x81, 0xde, 0x07,
  0xf8, 0x3f, 0x09, 0x94, 0xdf, 0x5c, 0x7d, 0x3e, 0x24, 0xc5, 0xd4, 0x7c, 0xf4, 0xfe, 0x71, 0x7f, 0x2d,
  0x46, 0x43, 0x0e, 0x10, 0x38, 0xe6, 0xeb, 0x45, 0x90, 0x25, 0xc2, 0x08, 0x37, 0xe0, 0x9e, 0xb7, 0x84,
  0x55, 0x98, 0x50, 0xd0, 0xf1, 0x15, 0x30, 0xdf, 0xa2, 0x7c, 0x3b, 0xee, 0x6b, 0xaa, 0xc8, 0x20, 0xce,
  0xf9, 0x38, 0x26, 0xb7, 0x80, 0x76, 0x2f, 0xa5, 0xeb, 0x33, 0x13, 0x1b, 0x1c, 0x12, 0x14]

def fecG4K100 : List UInt8 := [
  0x3c, 0x66, 0xa8, 0x11, 0xcc, 0xfa, 0x41, 0x6f, 0x0a, 0x26, 0x39, 0xf6, 0xa0, 0xab, 0x97, 0x84, 0x82,
  0x69, 0xd4, 0x43, 0xb9, 0xdc, 0x1d, 0xfe, 0xb0, 0xe2, 0x4e, 0x60, 0x08, 0x83, 0x29, 0x24, 0xdb, 0xd8,
  0xce, 0x12, 0x8d, 0x99, 0x4b, 0x3c, 0x8b, 0x14, 0x0d, 0x4d, 0xa4, 0x60, 0xe0, 0x47, 0xeb, 0xe8, 0x70,
  0x17, 0x20, 0xfd, 0x61, 0x65, 0x45, 0xc2, 0xcc, 0x2f, 0xc7, 0xce, 0xb5, 0x65, 0x0d, 0x74, 0x26, 0x32,
  0x39, 0x76, 0x3a, 0x5e, 0x21, 0x20, 0xb5, 0xd9, 0x75, 0x59, 0xf5, 0xf2, 0x3d, 0xb4, 0x91, 0x50, 0x23,
  0xaa, 0x74, 0xf2, 0xae, 0x94, 0x03, 0x71, 0xcd, 0xf0, 0x97, 0xa5, 0xf5, 0xe8, 0xc4, 0xd8]

def getGCoefficient (row col : Nat) (g0Table g4Table : List UInt8) : UInt8 :=
  if row < 4 then
    let grp := col / 4
    let pos := col % 4
    let mappedCol := grp * 4 + (pos ^^^ row)
    g0Table.getD mappedCol 0
  else if row = 4 then g4Table.getD col 0
  else 0

/-- `rs_fec_t`, its parameters `k` and `m` being part of the type. -/
structure RsFec (k m : Nat) where
  enGM : Matrix (Fin m) (Fin k) UInt8

def enLeft (k m : Nat) : Matrix (Fin m) (Fin k) UInt8 := of fun i j => rsExp (((k + i) * j) % 255)

def enRight (k : Nat) : Matrix (Fin k) (Fin k) UInt8 := of fun i j => rsExp ((i * j) % 255)

def rsFecNew (k m : Nat) : Option (RsFec k m) :=
  if k = 100 ∧ m = 5 then
    some ⟨of fun i j => getGCoefficient i j fecG0K100 fecG4K100⟩
  else
    match matrixInvGf256 (enRight k) with
    | none => none
    | some right => some ⟨matrixMulGf256 (enLeft k m) right⟩

/-! ### `rs_fec_decode`

Block `Sum.inl i` is `data[i]`, block `Sum.inr j` is `fec_data[j]`; `lostMap` has `true` for the
entries that are `1` (received). -/

/-- The first loop's `de_subGM` rows: a unit row for every received data block. -/
def dataRows (lostMap : Fin k ⊕ Fin m → Bool) : List (Fin k → UInt8) :=
  ((List.finRange k).filter fun i => lostMap (.inl i)).map fun i => Pi.single i 1

/-- The first loop's `lost_pkt_id`. -/
def lostPktId (lostMap : Fin k ⊕ Fin m → Bool) : List (Fin k) :=
  (List.finRange k).filter fun i => !lostMap (.inl i)

/-- The second loop: generator rows of received parity blocks until there are `k` rows. -/
def addFecRows (code : RsFec k m) (lostMap : Fin k ⊕ Fin m → Bool) :
    List (Fin m) → List (Fin k → UInt8) → List (Fin k → UInt8)
  | [], rows => rows
  | j :: js, rows =>
    if lostMap (.inr j) then
      if rows.length < k then addFecRows code lostMap js (rows ++ [code.enGM.row j])
      else rows
    else addFecRows code lostMap js rows

/-- `de_subGM`, the rows not filled in being zero. -/
def deSubGM (code : RsFec k m) (lostMap : Fin k ⊕ Fin m → Bool) : Matrix (Fin k) (Fin k) UInt8 :=
  of fun r => (addFecRows code lostMap (List.finRange m) (dataRows lostMap)).getD r 0

/-- The loop that gathers the received blocks in index order and stops at `k` of them. -/
def gatherRecv {β : Type} (block : Fin k ⊕ Fin m → β) (lostMap : Fin k ⊕ Fin m → Bool) :
    List (Fin k ⊕ Fin m) → List β → List β
  | [], recv => recv
  | i :: is, recv =>
    let recv := if lostMap i then recv ++ [block i] else recv
    if recv.length = k then recv else gatherRecv block lostMap is recv

/-- Block indices in the order `0 .. N-1`. -/
def blockIds (k m : Nat) : List (Fin k ⊕ Fin m) :=
  (List.finRange k).map .inl ++ (List.finRange m).map .inr

/-- `rs_fec_decode`: `none` for `-1`, else the data blocks after the call. -/
def rsFecDecode {S : Nat} (code : RsFec k m) (data : Fin k → Fin S → UInt8)
    (fecData : Fin m → Fin S → UInt8) (lostMap : Fin k ⊕ Fin m → Bool) :
    Option (Fin k → Fin S → UInt8) :=
  if (lostPktId lostMap).length > m then none
  else match matrixInvGf256 (deSubGM code lostMap) with
  | none => none
  | some inv =>
    let recvData := gatherRecv (Sum.elim data fecData) lostMap (blockIds k m) []
    some fun i r =>
      if i ∈ lostPktId lostMap then
        (List.finRange k).foldl (fun acc l => xorMul acc (inv i l) (recvData.getD l 0 r)) 0
      else data i r

end Rtp2httpd
