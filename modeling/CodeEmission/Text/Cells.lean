import CodeEmission.Text.Grapheme

/-!
# Display Cells

How many cells of a terminal a text takes: one for most characters, two for wide ones, none for
marks and for characters that are not shown. A grapheme cluster takes as many cells as its first
character that takes any.

`truncate` shortens a text to a number of cells, with dots at the end if there is room for them. It
cuts between clusters only.
-/

namespace CodeEmission.Text

/-- Characters from U+0300 on that take no cell. -/
def zeroWidthTable : RangeTable Unit :=
  RangeTable.ofText (fun _ => ()) "
300-36f 483-489 70f-70f 7eb-7f3 c00-c00 c04-c04 cf3-cf3 d00-d01 135d-135f 180b-180e 1a7f-1a7f
1ab0-1ace 1b6b-1b73 1dc0-1dff 200b-200f 2028-202e 206a-206f 20d0-20f0 2cef-2cf1 2de0-2dff
3099-309a a66f-a672 a674-a67d a69e-a69f a6f0-a6f1 a8e0-a8f1 fe20-fe2f feff-feff fff9-fffb
fffe-ffff 101fd-101fd 10376-1037a 10eab-10eac 10f46-10f50 10f82-10f85 11300-11301 1133b-1133c
11366-1136c 11370-11374 16af0-16af4 1cf00-1cf2d 1cf30-1cf46 1d165-1d169 1d16d-1d172 1d17b-1d182
1d185-1d18b 1d1aa-1d1ad 1d242-1d244 1e000-1e006 1e008-1e018 1e01b-1e021 1e023-1e024 1e026-1e02a
1e08f-1e08f 1e8d0-1e8d6"

/-- Characters that take two cells: the wide and fullwidth ones of Unicode 15.1. -/
def wideTable : RangeTable Unit :=
  RangeTable.ofText (fun _ => ()) "
1100-115f 231a-231b 2329-232a 23e9-23ec 23f0-23f0 23f3-23f3 25fd-25fe 2614-2615 2648-2653
267f-267f 2693-2693 26a1-26a1 26aa-26ab 26bd-26be 26c4-26c5 26ce-26ce 26d4-26d4 26ea-26ea
26f2-26f3 26f5-26f5 26fa-26fa 26fd-26fd 2705-2705 270a-270b 2728-2728 274c-274c 274e-274e
2753-2755 2757-2757 2795-2797 27b0-27b0 27bf-27bf 2b1b-2b1c 2b50-2b50 2b55-2b55 2e80-2e99
2e9b-2ef3 2f00-2fd5 2ff0-303e 3041-3096 3099-30ff 3105-312f 3131-318e 3190-31e3 31ef-321e
3220-3247 3250-4dbf 4e00-a48c a490-a4c6 a960-a97c ac00-d7a3 f900-faff fe10-fe19 fe30-fe52
fe54-fe66 fe68-fe6b ff01-ff60 ffe0-ffe6 16fe0-16fe4 16ff0-16ff1 17000-187f7 18800-18cd5
18d00-18d08 1aff0-1aff3 1aff5-1affb 1affd-1affe 1b000-1b122 1b132-1b132 1b150-1b152 1b155-1b155
1b164-1b167 1b170-1b2fb 1f004-1f004 1f0cf-1f0cf 1f18e-1f18e 1f191-1f19a 1f200-1f202 1f210-1f23b
1f240-1f248 1f250-1f251 1f260-1f265 1f300-1f320 1f32d-1f335 1f337-1f37c 1f37e-1f393 1f3a0-1f3ca
1f3cf-1f3d3 1f3e0-1f3f0 1f3f4-1f3f4 1f3f8-1f43e 1f440-1f440 1f442-1f4fc 1f4ff-1f53d 1f54b-1f54e
1f550-1f567 1f57a-1f57a 1f595-1f596 1f5a4-1f5a4 1f5fb-1f64f 1f680-1f6c5 1f6cc-1f6cc 1f6d0-1f6d2
1f6d5-1f6d7 1f6dc-1f6df 1f6eb-1f6ec 1f6f4-1f6fc 1f7e0-1f7eb 1f7f0-1f7f0 1f90c-1f93a 1f93c-1f945
1f947-1f9ff 1fa70-1fa7c 1fa80-1fa88 1fa90-1fabd 1fabf-1fac5 1face-1fadb 1fae0-1fae8 1faf0-1faf8
20000-2fffd 30000-3fffd"

/-- The cells of a character. -/
def charCells (c : Char) : Nat :=
  let n := c.toNat
  if n < 0x20 ∨ (0x7f ≤ n ∧ n ≤ 0x9f) ∨ n = 0xad then 0
  else if n < 0x300 then 1
  else if zeroWidthTable.has c then 0
  else if wideTable.has c then 2
  else 1

/-- The cells of a cluster. -/
def clusterCells (cluster : List Char) : Nat :=
  ((cluster.map charCells).find? (· ≠ 0)).getD 0

/-- The cells of clusters one after another. -/
def totalCells : List (List Char) → Nat
  | [] => 0
  | k :: rest => clusterCells k + totalCells rest

/-- The cells of a text. -/
def cells (s : String) : Nat :=
  totalCells (clusters s.toList)

/-- The longest run of leading clusters that fits into a number of cells. -/
def fitting (room : Nat) : List (List Char) → List (List Char)
  | [] => []
  | k :: rest => if clusterCells k ≤ room then k :: fitting (room - clusterCells k) rest else []

/-- A text cut to a number of cells, with a tail that counts among them. -/
def cut (width : Nat) (tail s : String) : String :=
  String.ofList (fitting (width - cells tail) (clusters s.toList)).flatten ++ tail

/-- A text in at most `width` cells. A text that is cut ends in dots if it then has room for more
than the dots alone. Without a positive width it stays as it is. -/
def truncate (width : Int) (s : String) : String :=
  if width ≤ 0 ∨ (cells s : Int) ≤ width then s
  else if width ≤ 3 then cut width.toNat "" s
  else cut width.toNat "..." s

end CodeEmission.Text
