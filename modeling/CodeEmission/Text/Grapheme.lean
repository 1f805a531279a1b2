import CodeEmission.Text.RangeTable

/-!
# Grapheme Clusters

A grapheme cluster is what a reader takes for one character: a letter with its marks, a flag of two
letters, a syllable, a row of joined pictures. The boundaries follow the rules of Unicode 15.0 for
extended clusters; `breaksBefore` is these rules, and `clusters` cuts a text at every boundary.
-/

namespace CodeEmission.Text

/-- What a character does to the boundaries around it. -/
inductive GraphemeClass where
  | carriageReturn | lineFeed | control
  | extend | joiner | spacing | leading
  | flag | picture
  | hangulL | hangulV | hangulT | hangulLV | hangulLVT
  | other
  deriving DecidableEq, Repr, Inhabited

/-- The letters by which the table names the classes. -/
def graphemeLetter (letter : List Char) : GraphemeClass :=
  match letter with
  | ['x'] => .carriageReturn
  | ['l'] => .lineFeed
  | ['c'] => .control
  | ['e'] => .extend
  | ['z'] => .joiner
  | ['s'] => .spacing
  | ['p'] => .leading
  | ['r'] => .flag
  | ['P'] => .picture
  | ['L'] => .hangulL
  | ['V'] => .hangulV
  | ['T'] => .hangulT
  | _ => .other

/-- The classes of all characters but the Hangul syllables and those of no special class. -/
def graphemeTable : RangeTable GraphemeClass :=
  RangeTable.ofText graphemeLetter "
0-9:c a-a:l b-c:c d-d:x e-1f:c 7f-9f:c a9-a9:P ad-ad:c ae-ae:P 300-36f:e 483-489:e 591-5bd:e
5bf-5bf:e 5c1-5c2:e 5c4-5c5:e 5c7-5c7:e 600-605:p 610-61a:e 61c-61c:c 64b-65f:e 670-670:e
6d6-6dc:e 6dd-6dd:p 6df-6e4:e 6e7-6e8:e 6ea-6ed:e 70f-70f:p 711-711:e 730-74a:e 7a6-7b0:e
7eb-7f3:e 7fd-7fd:e 816-819:e 81b-823:e 825-827:e 829-82d:e 859-85b:e 890-891:p 898-89f:e
8ca-8e1:e 8e2-8e2:p 8e3-902:e 903-903:s 93a-93a:e 93b-93b:s 93c-93c:e 93e-940:s 941-948:e
949-94c:s 94d-94d:e 94e-94f:s 951-957:e 962-963:e 981-981:e 982-983:s 9bc-9bc:e 9be-9be:e
9bf-9c0:s 9c1-9c4:e 9c7-9c8:s 9cb-9cc:s 9cd-9cd:e 9d7-9d7:e 9e2-9e3:e 9fe-9fe:e a01-a02:e
a03-a03:s a3c-a3c:e a3e-a40:s a41-a42:e a47-a48:e a4b-a4d:e a51-a51:e a70-a71:e a75-a75:e
a81-a82:e a83-a83:s abc-abc:e abe-ac0:s ac1-ac5:e ac7-ac8:e ac9-ac9:s acb-acc:s acd-acd:e
ae2-ae3:e afa-aff:e b01-b01:e b02-b03:s b3c-b3c:e b3e-b3f:e b40-b40:s b41-b44:e b47-b48:s
b4b-b4c:s b4d-b4d:e b55-b57:e b62-b63:e b82-b82:e bbe-bbe:e bbf-bbf:s bc0-bc0:e bc1-bc2:s
bc6-bc8:s bca-bcc:s bcd-bcd:e bd7-bd7:e c00-c00:e c01-c03:s c04-c04:e c3c-c3c:e c3e-c40:e
c41-c44:s c46-c48:e c4a-c4d:e c55-c56:e c62-c63:e c81-c81:e c82-c83:s cbc-cbc:e cbe-cbe:s
cbf-cbf:e cc0-cc1:s cc2-cc2:e cc3-cc4:s cc6-cc6:e cc7-cc8:s cca-ccb:s ccc-ccd:e cd5-cd6:e
ce2-ce3:e cf3-cf3:s d00-d01:e d02-d03:s d3b-d3c:e d3e-d3e:e d3f-d40:s d41-d44:e d46-d48:s
d4a-d4c:s d4d-d4d:e d4e-d4e:p d57-d57:e d62-d63:e d81-d81:e d82-d83:s dca-dca:e dcf-dcf:e
dd0-dd1:s dd2-dd4:e dd6-dd6:e dd8-dde:s ddf-ddf:e df2-df3:s e31-e31:e e33-e33:s e34-e3a:e
e47-e4e:e eb1-eb1:e eb3-eb3:s eb4-ebc:e ec8-ece:e f18-f19:e f35-f35:e f37-f37:e f39-f39:e
f3e-f3f:s f71-f7e:e f7f-f7f:s f80-f84:e f86-f87:e f8d-f97:e f99-fbc:e fc6-fc6:e 102d-1030:e
1031-1031:s 1032-1037:e 1039-103a:e 103b-103c:s 103d-103e:e 1056-1057:s 1058-1059:e 105e-1060:e
1071-1074:e 1082-1082:e 1084-1084:s 1085-1086:e 108d-108d:e 109d-109d:e 1100-115f:L 1160-11a7:V
11a8-11ff:T 135d-135f:e 1712-1714:e 1715-1715:s 1732-1733:e 1734-1734:s 1752-1753:e 1772-1773:e
17b4-17b5:e 17b6-17b6:s 17b7-17bd:e 17be-17c5:s 17c6-17c6:e 17c7-17c8:s 17c9-17d3:e 17dd-17dd:e
180b-180d:e 180e-180e:c 180f-180f:e 1885-1886:e 18a9-18a9:e 1920-1922:e 1923-1926:s 1927-1928:e
1929-192b:s 1930-1931:s 1932-1932:e 1933-1938:s 1939-193b:e 1a17-1a18:e 1a19-1a1a:s 1a1b-1a1b:e
1a55-1a55:s 1a56-1a56:e 1a57-1a57:s 1a58-1a5e:e 1a60-1a60:e 1a62-1a62:e 1a65-1a6c:e 1a6d-1a72:s
1a73-1a7c:e 1a7f-1a7f:e 1ab0-1ace:e 1b00-1b03:e 1b04-1b04:s 1b34-1b3a:e 1b3b-1b3b:s 1b3c-1b3c:e
1b3d-1b41:s 1b42-1b42:e 1b43-1b44:s 1b6b-1b73:e 1b80-1b81:e 1b82-1b82:s 1ba1-1ba1:s 1ba2-1ba5:e
1ba6-1ba7:s 1ba8-1ba9:e 1baa-1baa:s 1bab-1bad:e 1be6-1be6:e 1be7-1be7:s 1be8-1be9:e 1bea-1bec:s
1bed-1bed:e 1bee-1bee:s 1bef-1bf1:e 1bf2-1bf3:s 1c24-1c2b:s 1c2c-1c33:e 1c34-1c35:s 1c36-1c37:e
1cd0-1cd2:e 1cd4-1ce0:e 1ce1-1ce1:s 1ce2-1ce8:e 1ced-1ced:e 1cf4-1cf4:e 1cf7-1cf7:s 1cf8-1cf9:e
1dc0-1dff:e 200b-200b:c 200c-200c:e 200d-200d:z 200e-200f:c 2028-202e:c 203c-203c:P 2049-2049:P
2060-206f:c 20d0-20f0:e 2122-2122:P 2139-2139:P 2194-2199:P 21a9-21aa:P 231a-231b:P 2328-2328:P
2388-2388:P 23cf-23cf:P 23e9-23f3:P 23f8-23fa:P 24c2-24c2:P 25aa-25ab:P 25b6-25b6:P 25c0-25c0:P
25fb-25fe:P 2600-2605:P 2607-2612:P 2614-2685:P 2690-2705:P 2708-2712:P 2714-2714:P 2716-2716:P
271d-271d:P 2721-2721:P 2728-2728:P 2733-2734:P 2744-2744:P 2747-2747:P 274c-274c:P 274e-274e:P
2753-2755:P 2757-2757:P 2763-2767:P 2795-2797:P 27a1-27a1:P 27b0-27b0:P 27bf-27bf:P 2934-2935:P
2b05-2b07:P 2b1b-2b1c:P 2b50-2b50:P 2b55-2b55:P 2cef-2cf1:e 2d7f-2d7f:e 2de0-2dff:e 302a-302f:e
3030-3030:P 303d-303d:P 3099-309a:e 3297-3297:P 3299-3299:P a66f-a672:e a674-a67d:e a69e-a69f:e
a6f0-a6f1:e a802-a802:e a806-a806:e a80b-a80b:e a823-a824:s a825-a826:e a827-a827:s a82c-a82c:e
a880-a881:s a8b4-a8c3:s a8c4-a8c5:e a8e0-a8f1:e a8ff-a8ff:e a926-a92d:e a947-a951:e a952-a953:s
a960-a97c:L a980-a982:e a983-a983:s a9b3-a9b3:e a9b4-a9b5:s a9b6-a9b9:e a9ba-a9bb:s a9bc-a9bd:e
a9be-a9c0:s a9e5-a9e5:e aa29-aa2e:e aa2f-aa30:s aa31-aa32:e aa33-aa34:s aa35-aa36:e aa43-aa43:e
aa4c-aa4c:e aa4d-aa4d:s aa7c-aa7c:e aab0-aab0:e aab2-aab4:e aab7-aab8:e aabe-aabf:e aac1-aac1:e
aaeb-aaeb:s aaec-aaed:e aaee-aaef:s aaf5-aaf5:s aaf6-aaf6:e abe3-abe4:s abe5-abe5:e abe6-abe7:s
abe8-abe8:e abe9-abea:s abec-abec:s abed-abed:e d7b0-d7c6:V d7cb-d7fb:T fb1e-fb1e:e fe00-fe0f:e
fe20-fe2f:e feff-feff:c ff9e-ff9f:e fff0-fffb:c 101fd-101fd:e 102e0-102e0:e 10376-1037a:e
10a01-10a03:e 10a05-10a06:e 10a0c-10a0f:e 10a38-10a3a:e 10a3f-10a3f:e 10ae5-10ae6:e 10d24-10d27:e
10eab-10eac:e 10efd-10eff:e 10f46-10f50:e 10f82-10f85:e 11000-11000:s 11001-11001:e 11002-11002:s
11038-11046:e 11070-11070:e 11073-11074:e 1107f-11081:e 11082-11082:s 110b0-110b2:s 110b3-110b6:e
110b7-110b8:s 110b9-110ba:e 110bd-110bd:p 110c2-110c2:e 110cd-110cd:p 11100-11102:e 11127-1112b:e
1112c-1112c:s 1112d-11134:e 11145-11146:s 11173-11173:e 11180-11181:e 11182-11182:s 111b3-111b5:s
111b6-111be:e 111bf-111c0:s 111c2-111c3:p 111c9-111cc:e 111ce-111ce:s 111cf-111cf:e 1122c-1122e:s
1122f-11231:e 11232-11233:s 11234-11234:e 11235-11235:s 11236-11237:e 1123e-1123e:e 11241-11241:e
112df-112df:e 112e0-112e2:s 112e3-112ea:e 11300-11301:e 11302-11303:s 1133b-1133c:e 1133e-1133e:e
1133f-1133f:s 11340-11340:e 11341-11344:s 11347-11348:s 1134b-1134d:s 11357-11357:e 11362-11363:s
11366-1136c:e 11370-11374:e 11435-11437:s 11438-1143f:e 11440-11441:s 11442-11444:e 11445-11445:s
11446-11446:e 1145e-1145e:e 114b0-114b0:e 114b1-114b2:s 114b3-114b8:e 114b9-114b9:s 114ba-114ba:e
114bb-114bc:s 114bd-114bd:e 114be-114be:s 114bf-114c0:e 114c1-114c1:s 114c2-114c3:e 115af-115af:e
115b0-115b1:s 115b2-115b5:e 115b8-115bb:s 115bc-115bd:e 115be-115be:s 115bf-115c0:e 115dc-115dd:e
11630-11632:s 11633-1163a:e 1163b-1163c:s 1163d-1163d:e 1163e-1163e:s 1163f-11640:e 116ab-116ab:e
116ac-116ac:s 116ad-116ad:e 116ae-116af:s 116b0-116b5:e 116b6-116b6:s 116b7-116b7:e 1171d-1171f:e
11722-11725:e 11726-11726:s 11727-1172b:e 1182c-1182e:s 1182f-11837:e 11838-11838:s 11839-1183a:e
11930-11930:e 11931-11935:s 11937-11938:s 1193b-1193c:e 1193d-1193d:s 1193e-1193e:e 1193f-1193f:p
11940-11940:s 11941-11941:p 11942-11942:s 11943-11943:e 119d1-119d3:s 119d4-119d7:e 119da-119db:e
119dc-119df:s 119e0-119e0:e 119e4-119e4:s 11a01-11a0a:e 11a33-11a38:e 11a39-11a39:s 11a3a-11a3a:p
11a3b-11a3e:e 11a47-11a47:e 11a51-11a56:e 11a57-11a58:s 11a59-11a5b:e 11a84-11a89:p 11a8a-11a96:e
11a97-11a97:s 11a98-11a99:e 11c2f-11c2f:s 11c30-11c36:e 11c38-11c3d:e 11c3e-11c3e:s 11c3f-11c3f:e
11c92-11ca7:e 11ca9-11ca9:s 11caa-11cb0:e 11cb1-11cb1:s 11cb2-11cb3:e 11cb4-11cb4:s 11cb5-11cb6:e
11d31-11d36:e 11d3a-11d3a:e 11d3c-11d3d:e 11d3f-11d45:e 11d46-11d46:p 11d47-11d47:e 11d8a-11d8e:s
11d90-11d91:e 11d93-11d94:s 11d95-11d95:e 11d96-11d96:s 11d97-11d97:e 11ef3-11ef4:e 11ef5-11ef6:s
11f00-11f01:e 11f02-11f02:p 11f03-11f03:s 11f34-11f35:s 11f36-11f3a:e 11f3e-11f3f:s 11f40-11f40:e
11f41-11f41:s 11f42-11f42:e 13430-1343f:c 13440-13440:e 13447-13455:e 16af0-16af4:e 16b30-16b36:e
16f4f-16f4f:e 16f51-16f87:s 16f8f-16f92:e 16fe4-16fe4:e 16ff0-16ff1:s 1bc9d-1bc9e:e 1bca0-1bca3:c
1cf00-1cf2d:e 1cf30-1cf46:e 1d165-1d165:e 1d166-1d166:s 1d167-1d169:e 1d16d-1d16d:s 1d16e-1d172:e
1d173-1d17a:c 1d17b-1d182:e 1d185-1d18b:e 1d1aa-1d1ad:e 1d242-1d244:e 1da00-1da36:e 1da3b-1da6c:e
1da75-1da75:e 1da84-1da84:e 1da9b-1da9f:e 1daa1-1daaf:e 1e000-1e006:e 1e008-1e018:e 1e01b-1e021:e
1e023-1e024:e 1e026-1e02a:e 1e08f-1e08f:e 1e130-1e136:e 1e2ae-1e2ae:e 1e2ec-1e2ef:e 1e4ec-1e4ef:e
1e8d0-1e8d6:e 1e944-1e94a:e 1f000-1f0ff:P 1f10d-1f10f:P 1f12f-1f12f:P 1f16c-1f171:P 1f17e-1f17f:P
1f18e-1f18e:P 1f191-1f19a:P 1f1ad-1f1e5:P 1f1e6-1f1ff:r 1f201-1f20f:P 1f21a-1f21a:P 1f22f-1f22f:P
1f232-1f23a:P 1f23c-1f23f:P 1f249-1f3fa:P 1f3fb-1f3ff:e 1f400-1f53d:P 1f546-1f64f:P 1f680-1f6ff:P
1f774-1f77f:P 1f7d5-1f7ff:P 1f80c-1f80f:P 1f848-1f84f:P 1f85a-1f85f:P 1f888-1f88f:P 1f8ae-1f8ff:P
1f90c-1f93a:P 1f93c-1f945:P 1f947-1faff:P 1fc00-1fffd:P e0000-e001f:c e0020-e007f:e e0080-e00ff:c
e0100-e01ef:e e01f0-e0fff:c"

/-- The class of a character. -/
def graphemeClass (c : Char) : GraphemeClass :=
  let n := c.toNat
  if 0xac00 ≤ n ∧ n ≤ 0xd7a3 then (if (n - 0xac00) % 28 = 0 then .hangulLV else .hangulLVT)
  else (graphemeTable.find? n).getD .other

/-- What the rules need to know of the characters before a boundary. -/
structure GraphemeState where
  /-- The class of the last character. -/
  last : GraphemeClass
  /-- Whether the text ends in a picture, with marks after it or without. -/
  afterPicture : Bool := false
  /-- Whether the text ends in such a picture and a joiner. -/
  afterJoin : Bool := false
  /-- Whether the text ends in an odd number of flag letters. -/
  oddFlags : Bool := false
  deriving DecidableEq, Repr

namespace GraphemeState

/-- The state after one more character. -/
def next (s : GraphemeState) (c : GraphemeClass) : GraphemeState :=
  { last := c
    afterPicture := c = .picture || (c = .extend && s.afterPicture)
    afterJoin := c = .joiner && s.afterPicture
    oddFlags := c = .flag && !s.oddFlags }

/-- The state after the first character of a text. -/
def first (c : GraphemeClass) : GraphemeState :=
  { last := c, afterPicture := c = .picture, oddFlags := c = .flag }

/-- Whether a class stands alone. -/
def isAlone : GraphemeClass → Bool
  | .carriageReturn | .lineFeed | .control => true
  | _ => false

/-- Whether two parts of Hangul syllables belong together. -/
def joinsHangul : GraphemeClass → GraphemeClass → Bool
  | .hangulL, .hangulL | .hangulL, .hangulV | .hangulL, .hangulLV | .hangulL, .hangulLVT => true
  | .hangulLV, .hangulV | .hangulLV, .hangulT | .hangulV, .hangulV | .hangulV, .hangulT => true
  | .hangulLVT, .hangulT | .hangulT, .hangulT => true
  | _, _ => false

/-- Whether there is a boundary between the text so far and a character. -/
def breaksBefore (s : GraphemeState) (c : GraphemeClass) : Bool :=
  if s.last = .carriageReturn && c = .lineFeed then false
  else if isAlone s.last || isAlone c then true
  else !(joinsHangul s.last c || c = .extend || c = .joiner || c = .spacing ||
    s.last = .leading || (s.afterJoin && c = .picture) || (s.oddFlags && c = .flag))

end GraphemeState

/-- Cut a text after its first characters, which stand in reverse order. -/
def clustersFrom (s : GraphemeState) (current : List Char) : List Char → List (List Char)
  | [] => [current.reverse]
  | c :: rest =>
    let k := graphemeClass c
    if s.breaksBefore k then current.reverse :: clustersFrom (s.next k) [c] rest
    else clustersFrom (s.next k) (c :: current) rest

/-- The grapheme clusters of a text. -/
def clusters : List Char → List (List Char)
  | [] => []
  | c :: rest => clustersFrom (.first (graphemeClass c)) [c] rest

end CodeEmission.Text
