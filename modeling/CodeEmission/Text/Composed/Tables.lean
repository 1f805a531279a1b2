import CodeEmission.Text.RangeTable

/-!
# Tables of Canonical Composition

The character data of Unicode 15.0 that canonical normalisation needs: combining classes, full
canonical decompositions, the pairs that compose, the characters that can be the second of such a
pair, and the number of non-starters at the two ends of a character's compatibility decomposition.
Hangul syllables are left out, since they are computed.
-/

namespace CodeEmission.Text

/-- Combining classes other than zero. -/
def combiningClassTable : RangeTable Nat :=
  RangeTable.ofText (fun digits => (String.ofList digits).toNat?.getD 0) "
300-314:230 315-315:232 316-319:220 31a-31a:232 31b-31b:216 31c-320:220 321-322:202
323-326:220 327-328:202 329-333:220 334-338:1 339-33c:220 33d-344:230 345-345:240 346-346:230
347-349:220 34a-34c:230 34d-34e:220 350-352:230 353-356:220 357-357:230 358-358:232
359-35a:220 35b-35b:230 35c-35c:233 35d-35e:234 35f-35f:233 360-361:234 362-362:233
363-36f:230 483-487:230 591-591:220 592-595:230 596-596:220 597-599:230 59a-59a:222
59b-59b:220 59c-5a1:230 5a2-5a7:220 5a8-5a9:230 5aa-5aa:220 5ab-5ac:230 5ad-5ad:222
5ae-5ae:228 5af-5af:230 5b0-5b0:10 5b1-5b1:11 5b2-5b2:12 5b3-5b3:13 5b4-5b4:14 5b5-5b5:15
5b6-5b6:16 5b7-5b7:17 5b8-5b8:18 5b9-5ba:19 5bb-5bb:20 5bc-5bc:21 5bd-5bd:22 5bf-5bf:23
5c1-5c1:24 5c2-5c2:25 5c4-5c4:230 5c5-5c5:220 5c7-5c7:18 610-617:230 618-618:30 619-619:31
61a-61a:32 64b-64b:27 64c-64c:28 64d-64d:29 64e-64e:30 64f-64f:31 650-650:32 651-651:33
652-652:34 653-654:230 655-656:220 657-65b:230 65c-65c:220 65d-65e:230 65f-65f:220 670-670:35
6d6-6dc:230 6df-6e2:230 6e3-6e3:220 6e4-6e4:230 6e7-6e8:230 6ea-6ea:220 6eb-6ec:230
6ed-6ed:220 711-711:36 730-730:230 731-731:220 732-733:230 734-734:220 735-736:230
737-739:220 73a-73a:230 73b-73c:220 73d-73d:230 73e-73e:220 73f-741:230 742-742:220
743-743:230 744-744:220 745-745:230 746-746:220 747-747:230 748-748:220 749-74a:230
7eb-7f1:230 7f2-7f2:220 7f3-7f3:230 7fd-7fd:220 816-819:230 81b-823:230 825-827:230
829-82d:230 859-85b:220 898-898:230 899-89b:220 89c-89f:230 8ca-8ce:230 8cf-8d3:220
8d4-8e1:230 8e3-8e3:220 8e4-8e5:230 8e6-8e6:220 8e7-8e8:230 8e9-8e9:220 8ea-8ec:230
8ed-8ef:220 8f0-8f0:27 8f1-8f1:28 8f2-8f2:29 8f3-8f5:230 8f6-8f6:220 8f7-8f8:230 8f9-8fa:220
8fb-8ff:230 93c-93c:7 94d-94d:9 951-951:230 952-952:220 953-954:230 9bc-9bc:7 9cd-9cd:9
9fe-9fe:230 a3c-a3c:7 a4d-a4d:9 abc-abc:7 acd-acd:9 b3c-b3c:7 b4d-b4d:9 bcd-bcd:9 c3c-c3c:7
c4d-c4d:9 c55-c55:84 c56-c56:91 cbc-cbc:7 ccd-ccd:9 d3b-d3c:9 d4d-d4d:9 dca-dca:9 e38-e39:103
e3a-e3a:9 e48-e4b:107 eb8-eb9:118 eba-eba:9 ec8-ecb:122 f18-f19:220 f35-f35:220 f37-f37:220
f39-f39:216 f71-f71:129 f72-f72:130 f74-f74:132 f7a-f7d:130 f80-f80:130 f82-f83:230 f84-f84:9
f86-f87:230 fc6-fc6:220 1037-1037:7 1039-103a:9 108d-108d:220 135d-135f:230 1714-1715:9
1734-1734:9 17d2-17d2:9 17dd-17dd:230 18a9-18a9:228 1939-1939:222 193a-193a:230 193b-193b:220
1a17-1a17:230 1a18-1a18:220 1a60-1a60:9 1a75-1a7c:230 1a7f-1a7f:220 1ab0-1ab4:230
1ab5-1aba:220 1abb-1abc:230 1abd-1abd:220 1abf-1ac0:220 1ac1-1ac2:230 1ac3-1ac4:220
1ac5-1ac9:230 1aca-1aca:220 1acb-1ace:230 1b34-1b34:7 1b44-1b44:9 1b6b-1b6b:230 1b6c-1b6c:220
1b6d-1b73:230 1baa-1bab:9 1be6-1be6:7 1bf2-1bf3:9 1c37-1c37:7 1cd0-1cd2:230 1cd4-1cd4:1
1cd5-1cd9:220 1cda-1cdb:230 1cdc-1cdf:220 1ce0-1ce0:230 1ce2-1ce8:1 1ced-1ced:220
1cf4-1cf4:230 1cf8-1cf9:230 1dc0-1dc1:230 1dc2-1dc2:220 1dc3-1dc9:230 1dca-1dca:220
1dcb-1dcc:230 1dcd-1dcd:234 1dce-1dce:214 1dcf-1dcf:220 1dd0-1dd0:202 1dd1-1df5:230
1df6-1df6:232 1df7-1df8:228 1df9-1df9:220 1dfa-1dfa:218 1dfb-1dfb:230 1dfc-1dfc:233
1dfd-1dfd:220 1dfe-1dfe:230 1dff-1dff:220 20d0-20d1:230 20d2-20d3:1 20d4-20d7:230 20d8-20da:1
20db-20dc:230 20e1-20e1:230 20e5-20e6:1 20e7-20e7:230 20e8-20e8:220 20e9-20e9:230 20ea-20eb:1
20ec-20ef:220 20f0-20f0:230 2cef-2cf1:230 2d7f-2d7f:9 2de0-2dff:230 302a-302a:218
302b-302b:228 302c-302c:232 302d-302d:222 302e-302f:224 3099-309a:8 a66f-a66f:230
a674-a67d:230 a69e-a69f:230 a6f0-a6f1:230 a806-a806:9 a82c-a82c:9 a8c4-a8c4:9 a8e0-a8f1:230
a92b-a92d:220 a953-a953:9 a9b3-a9b3:7 a9c0-a9c0:9 aab0-aab0:230 aab2-aab3:230 aab4-aab4:220
aab7-aab8:230 aabe-aabf:230 aac1-aac1:230 aaf6-aaf6:9 abed-abed:9 fb1e-fb1e:26 fe20-fe26:230
fe27-fe2d:220 fe2e-fe2f:230 101fd-101fd:220 102e0-102e0:220 10376-1037a:230 10a0d-10a0d:220
10a0f-10a0f:230 10a38-10a38:230 10a39-10a39:1 10a3a-10a3a:220 10a3f-10a3f:9 10ae5-10ae5:230
10ae6-10ae6:220 10d24-10d27:230 10eab-10eac:230 10efd-10eff:220 10f46-10f47:220
10f48-10f4a:230 10f4b-10f4b:220 10f4c-10f4c:230 10f4d-10f50:220 10f82-10f82:230
10f83-10f83:220 10f84-10f84:230 10f85-10f85:220 11046-11046:9 11070-11070:9 1107f-1107f:9
110b9-110b9:9 110ba-110ba:7 11100-11102:230 11133-11134:9 11173-11173:7 111c0-111c0:9
111ca-111ca:7 11235-11235:9 11236-11236:7 112e9-112e9:7 112ea-112ea:9 1133b-1133c:7
1134d-1134d:9 11366-1136c:230 11370-11374:230 11442-11442:9 11446-11446:7 1145e-1145e:230
114c2-114c2:9 114c3-114c3:7 115bf-115bf:9 115c0-115c0:7 1163f-1163f:9 116b6-116b6:9
116b7-116b7:7 1172b-1172b:9 11839-11839:9 1183a-1183a:7 1193d-1193e:9 11943-11943:7
119e0-119e0:9 11a34-11a34:9 11a47-11a47:9 11a99-11a99:9 11c3f-11c3f:9 11d42-11d42:7
11d44-11d45:9 11d97-11d97:9 11f41-11f42:9 16af0-16af4:1 16b30-16b36:230 16ff0-16ff1:6
1bc9e-1bc9e:1 1d165-1d166:216 1d167-1d169:1 1d16d-1d16d:226 1d16e-1d172:216 1d17b-1d182:220
1d185-1d189:230 1d18a-1d18b:220 1d1aa-1d1ad:230 1d242-1d244:230 1e000-1e006:230
1e008-1e018:230 1e01b-1e021:230 1e023-1e024:230 1e026-1e02a:230 1e08f-1e08f:230
1e130-1e136:230 1e2ae-1e2ae:230 1e2ec-1e2ef:230 1e4ec-1e4ed:232 1e4ee-1e4ee:220
1e4ef-1e4ef:230 1e8d0-1e8d6:220 1e944-1e949:230 1e94a-1e94a:7"

/-- Characters that can be the second of a composing pair. -/
def composesBackwardTable : RangeTable Unit :=
  RangeTable.ofText (fun _ => ()) "
300-304 306-30c 30f-30f 311-311 313-314 31b-31b 323-328 32d-32e 330-331 338-338 342-342
345-345 653-655 93c-93c 9be-9be 9d7-9d7 b3e-b3e b56-b57 bbe-bbe bd7-bd7 c56-c56 cc2-cc2
cd5-cd6 d3e-d3e d57-d57 dca-dca dcf-dcf ddf-ddf 102e-102e 1161-1175 11a8-11c2 1b35-1b35
3099-309a 110ba-110ba 11127-11127 1133e-1133e 11357-11357 114b0-114b0 114ba-114ba 114bd-114bd
115af-115af 11930-11930"

/-- The number of non-starters at the start and at the end of a character's decomposition. -/
def nonStarterTable : PagedTable (Nat × Nat) :=
  PagedTable.ofTexts
    (fun digits =>
      (hexNat (digits.takeWhile (· != ',')), hexNat ((digits.dropWhile (· != ',')).drop 1)))
    [(0x0, "a8-a8:0,1 af-af:0,1 b4-b4:0,1 b8-b8:0,1 c0-c5:0,1 c7-cf:0,1 d1-d6:0,1 d9-dd:0,1
e0-e5:0,1 e7-ef:0,1 f1-f6:0,1 f9-fd:0,1 ff-ff:0,1"),
     (0x1, "100-10f:0,1 112-125:0,1 128-130:0,1 134-137:0,1 139-13e:0,1 143-148:0,1 14c-151:0,1
154-165:0,1 168-17e:0,1 1a0-1a1:0,1 1af-1b0:0,1 1c4-1c6:0,1 1cd-1d4:0,1 1d5-1dc:0,2 1de-1e1:0,2
1e2-1e3:0,1 1e6-1eb:0,1 1ec-1ed:0,2 1ee-1f0:0,1 1f4-1f5:0,1 1f8-1f9:0,1 1fa-1fb:0,2 1fc-1ff:0,1"),
     (0x2, "200-21b:0,1 21e-21f:0,1 226-229:0,1 22a-22d:0,2 22e-22f:0,1 230-231:0,2 232-233:0,1
2d8-2dd:0,1"),
     (0x3, "300-343:1,1 344-344:2,2 345-34e:1,1 350-36f:1,1 37a-37a:0,1 384-384:0,1 385-385:0,2
386-386:0,1 388-38a:0,1 38c-38c:0,1 38e-38f:0,1 390-390:0,2 3aa-3af:0,1 3b0-3b0:0,2 3ca-3ce:0,1
3d3-3d4:0,1"),
     (0x4, "400-401:0,1 403-403:0,1 407-407:0,1 40c-40e:0,1 419-419:0,1 439-439:0,1 450-451:0,1
453-453:0,1 457-457:0,1 45c-45e:0,1 476-477:0,1 483-487:1,1 4c1-4c2:0,1 4d0-4d3:0,1 4d6-4d7:0,1
4da-4df:0,1 4e2-4e7:0,1 4ea-4f5:0,1 4f8-4f9:0,1"),
     (0x5, "591-5bd:1,1 5bf-5bf:1,1 5c1-5c2:1,1 5c4-5c5:1,1 5c7-5c7:1,1"),
     (0x6, "610-61a:1,1 622-626:0,1 64b-65f:1,1 670-670:1,1 6c0-6c0:0,1 6c2-6c2:0,1 6d3-6d3:0,1
6d6-6dc:1,1 6df-6e4:1,1 6e7-6e8:1,1 6ea-6ed:1,1"),
     (0x7, "711-711:1,1 730-74a:1,1 7eb-7f3:1,1 7fd-7fd:1,1"),
     (0x8, "816-819:1,1 81b-823:1,1 825-827:1,1 829-82d:1,1 859-85b:1,1 898-89f:1,1 8ca-8e1:1,1
8e3-8ff:1,1"),
     (0x9, "929-929:0,1 931-931:0,1 934-934:0,1 93c-93c:1,1 94d-94d:1,1 951-954:1,1 958-95f:0,1
9bc-9bc:1,1 9be-9be:1,1 9cb-9cc:0,1 9cd-9cd:1,1 9d7-9d7:1,1 9dc-9dd:0,1 9df-9df:0,1 9fe-9fe:1,1"),
     (0xa, "a33-a33:0,1 a36-a36:0,1 a3c-a3c:1,1 a4d-a4d:1,1 a59-a5b:0,1 a5e-a5e:0,1 abc-abc:1,1
acd-acd:1,1"),
     (0xb, "b3c-b3c:1,1 b3e-b3e:1,1 b48-b48:0,1 b4b-b4c:0,1 b4d-b4d:1,1 b56-b57:1,1 b5c-b5d:0,1
b94-b94:0,1 bbe-bbe:1,1 bca-bcc:0,1 bcd-bcd:1,1 bd7-bd7:1,1"),
     (0xc, "c3c-c3c:1,1 c48-c48:0,1 c4d-c4d:1,1 c55-c56:1,1 cbc-cbc:1,1 cc0-cc0:0,1 cc2-cc2:1,1
cc7-cc8:0,1 cca-cca:0,1 ccb-ccb:0,2 ccd-ccd:1,1 cd5-cd6:1,1"),
     (0xd, "d3b-d3c:1,1 d3e-d3e:1,1 d4a-d4c:0,1 d4d-d4d:1,1 d57-d57:1,1 dca-dca:1,1 dcf-dcf:1,1
dda-dda:0,1 ddc-ddc:0,1 ddd-ddd:0,2 dde-dde:0,1 ddf-ddf:1,1"),
     (0xe, "e38-e3a:1,1 e48-e4b:1,1 eb8-eba:1,1 ec8-ecb:1,1"),
     (0xf, "f18-f19:1,1 f35-f35:1,1 f37-f37:1,1 f39-f39:1,1 f71-f72:1,1 f73-f73:2,2 f74-f74:1,1
f75-f75:2,2 f76-f76:0,1 f77-f77:0,2 f78-f78:0,1 f79-f79:0,2 f7a-f7d:1,1 f80-f80:1,1 f81-f81:2,2
f82-f84:1,1 f86-f87:1,1 fc6-fc6:1,1"),
     (0x10, "1026-1026:0,1 102e-102e:1,1 1037-1037:1,1 1039-103a:1,1 108d-108d:1,1"),
     (0x11, "1161-1175:1,1 11a8-11c2:1,1"),
     (0x13, "135d-135f:1,1"),
     (0x17, "1714-1715:1,1 1734-1734:1,1 17d2-17d2:1,1 17dd-17dd:1,1"),
     (0x18, "18a9-18a9:1,1"),
     (0x19, "1939-193b:1,1"),
     (0x1a, "1a17-1a18:1,1 1a60-1a60:1,1 1a75-1a7c:1,1 1a7f-1a7f:1,1 1ab0-1abd:1,1
1abf-1ace:1,1"),
     (0x1b, "1b06-1b06:0,1 1b08-1b08:0,1 1b0a-1b0a:0,1 1b0c-1b0c:0,1 1b0e-1b0e:0,1
1b12-1b12:0,1 1b34-1b35:1,1 1b3b-1b3b:0,1 1b3d-1b3d:0,1 1b40-1b41:0,1 1b43-1b43:0,1
1b44-1b44:1,1 1b6b-1b73:1,1 1baa-1bab:1,1 1be6-1be6:1,1 1bf2-1bf3:1,1"),
     (0x1c, "1c37-1c37:1,1 1cd0-1cd2:1,1 1cd4-1ce0:1,1 1ce2-1ce8:1,1 1ced-1ced:1,1
1cf4-1cf4:1,1 1cf8-1cf9:1,1"),
     (0x1d, "1dc0-1dff:1,1"),
     (0x1e, "1e00-1e07:0,1 1e08-1e09:0,2 1e0a-1e13:0,1 1e14-1e17:0,2 1e18-1e1b:0,1
1e1c-1e1d:0,2 1e1e-1e2d:0,1 1e2e-1e2f:0,2 1e30-1e37:0,1 1e38-1e39:0,2 1e3a-1e4b:0,1
1e4c-1e53:0,2 1e54-1e5b:0,1 1e5c-1e5d:0,2 1e5e-1e63:0,1 1e64-1e69:0,2 1e6a-1e77:0,1
1e78-1e7b:0,2 1e7c-1e99:0,1 1e9b-1e9b:0,1 1ea0-1ea3:0,1 1ea4-1eb7:0,2 1eb8-1ebd:0,1
1ebe-1ec7:0,2 1ec8-1ecf:0,1 1ed0-1ee3:0,2 1ee4-1ee7:0,1 1ee8-1ef1:0,2 1ef2-1ef9:0,1"),
     (0x1f, "1f00-1f01:0,1 1f02-1f07:0,2 1f08-1f09:0,1 1f0a-1f0f:0,2 1f10-1f11:0,1
1f12-1f15:0,2 1f18-1f19:0,1 1f1a-1f1d:0,2 1f20-1f21:0,1 1f22-1f27:0,2 1f28-1f29:0,1
1f2a-1f2f:0,2 1f30-1f31:0,1 1f32-1f37:0,2 1f38-1f39:0,1 1f3a-1f3f:0,2 1f40-1f41:0,1
1f42-1f45:0,2 1f48-1f49:0,1 1f4a-1f4d:0,2 1f50-1f51:0,1 1f52-1f57:0,2 1f59-1f59:0,1
1f5b-1f5b:0,2 1f5d-1f5d:0,2 1f5f-1f5f:0,2 1f60-1f61:0,1 1f62-1f67:0,2 1f68-1f69:0,1
1f6a-1f6f:0,2 1f70-1f7d:0,1 1f80-1f81:0,2 1f82-1f87:0,3 1f88-1f89:0,2 1f8a-1f8f:0,3
1f90-1f91:0,2 1f92-1f97:0,3 1f98-1f99:0,2 1f9a-1f9f:0,3 1fa0-1fa1:0,2 1fa2-1fa7:0,3
1fa8-1fa9:0,2 1faa-1faf:0,3 1fb0-1fb1:0,1 1fb2-1fb2:0,2 1fb3-1fb3:0,1 1fb4-1fb4:0,2
1fb6-1fb6:0,1 1fb7-1fb7:0,2 1fb8-1fbd:0,1 1fbf-1fc0:0,1 1fc1-1fc2:0,2 1fc3-1fc3:0,1
1fc4-1fc4:0,2 1fc6-1fc6:0,1 1fc7-1fc7:0,2 1fc8-1fcc:0,1 1fcd-1fcf:0,2 1fd0-1fd1:0,1
1fd2-1fd3:0,2 1fd6-1fd6:0,1 1fd7-1fd7:0,2 1fd8-1fdb:0,1 1fdd-1fdf:0,2 1fe0-1fe1:0,1
1fe2-1fe3:0,2 1fe4-1fe6:0,1 1fe7-1fe7:0,2 1fe8-1fec:0,1 1fed-1fee:0,2 1ff2-1ff2:0,2
1ff3-1ff3:0,1 1ff4-1ff4:0,2 1ff6-1ff6:0,1 1ff7-1ff7:0,2 1ff8-1ffe:0,1"),
     (0x20, "2017-2017:0,1 203e-203e:0,1 20d0-20dc:1,1 20e1-20e1:1,1 20e5-20f0:1,1"),
     (0x21, "212b-212b:0,1 219a-219b:0,1 21ae-21ae:0,1 21cd-21cf:0,1"),
     (0x22, "2204-2204:0,1 2209-2209:0,1 220c-220c:0,1 2224-2224:0,1 2226-2226:0,1
2241-2241:0,1 2244-2244:0,1 2247-2247:0,1 2249-2249:0,1 2260-2260:0,1 2262-2262:0,1
226d-2271:0,1 2274-2275:0,1 2278-2279:0,1 2280-2281:0,1 2284-2285:0,1 2288-2289:0,1
22ac-22af:0,1 22e0-22e3:0,1 22ea-22ed:0,1"),
     (0x2a, "2adc-2adc:0,1"),
     (0x2c, "2cef-2cf1:1,1"),
     (0x2d, "2d7f-2d7f:1,1 2de0-2dff:1,1"),
     (0x30, "302a-302f:1,1 304c-304c:0,1 304e-304e:0,1 3050-3050:0,1 3052-3052:0,1
3054-3054:0,1 3056-3056:0,1 3058-3058:0,1 305a-305a:0,1 305c-305c:0,1 305e-305e:0,1
3060-3060:0,1 3062-3062:0,1 3065-3065:0,1 3067-3067:0,1 3069-3069:0,1 3070-3071:0,1
3073-3074:0,1 3076-3077:0,1 3079-307a:0,1 307c-307d:0,1 3094-3094:0,1 3099-309a:1,1
309b-309c:0,1 309e-309e:0,1 30ac-30ac:0,1 30ae-30ae:0,1 30b0-30b0:0,1 30b2-30b2:0,1
30b4-30b4:0,1 30b6-30b6:0,1 30b8-30b8:0,1 30ba-30ba:0,1 30bc-30bc:0,1 30be-30be:0,1
30c0-30c0:0,1 30c2-30c2:0,1 30c5-30c5:0,1 30c7-30c7:0,1 30c9-30c9:0,1 30d0-30d1:0,1
30d3-30d4:0,1 30d6-30d7:0,1 30d9-30da:0,1 30dc-30dd:0,1 30f4-30f4:0,1 30f7-30fa:0,1
30fe-30fe:0,1"),
     (0x31, "3133-3133:1,1 3135-3136:1,1 313a-313f:1,1 314f-3163:1,1"),
     (0x32, "326e-327e:0,1"),
     (0x33, "3304-3304:0,1 3307-3307:0,1 3310-3310:0,1 331e-331e:0,1 3321-3321:0,1
3332-3332:0,1 333b-333b:0,1 3340-3340:0,1 334b-334b:0,1 334e-334e:0,1"),
     (0xa6, "a66f-a66f:1,1 a674-a67d:1,1 a69e-a69f:1,1 a6f0-a6f1:1,1"),
     (0xa8, "a806-a806:1,1 a82c-a82c:1,1 a8c4-a8c4:1,1 a8e0-a8f1:1,1"),
     (0xa9, "a92b-a92d:1,1 a953-a953:1,1 a9b3-a9b3:1,1 a9c0-a9c0:1,1"),
     (0xaa, "aab0-aab0:1,1 aab2-aab4:1,1 aab7-aab8:1,1 aabe-aabf:1,1 aac1-aac1:1,1
aaf6-aaf6:1,1"),
     (0xab, "abed-abed:1,1"),
     (0xfb, "fb1d-fb1d:0,1 fb1e-fb1e:1,1 fb1f-fb1f:0,1 fb2a-fb2b:0,1 fb2c-fb2d:0,2
fb2e-fb36:0,1 fb38-fb3c:0,1 fb3e-fb3e:0,1 fb40-fb41:0,1 fb43-fb44:0,1 fb46-fb4e:0,1
fba4-fba5:0,1 fbb0-fbb1:0,1"),
     (0xfc, "fc5b-fc5d:0,1 fc5e-fc63:0,2 fc90-fc90:0,1 fcd9-fcd9:0,1 fcf2-fcf4:0,2"),
     (0xfd, "fd3c-fd3d:0,1"),
     (0xfe, "fe20-fe2f:1,1 fe49-fe4c:0,1 fe70-fe72:0,1 fe74-fe74:0,1 fe76-fe7f:0,1
fe81-fe8c:0,1 fef5-fefa:0,1"),
     (0xff, "ff9e-ff9f:1,1 ffa3-ffa3:1,1 ffa5-ffa6:1,1 ffaa-ffaf:1,1 ffc2-ffc7:1,1
ffca-ffcf:1,1 ffd2-ffd7:1,1 ffda-ffdc:1,1 ffe3-ffe3:0,1"),
     (0x101, "101fd-101fd:1,1"),
     (0x102, "102e0-102e0:1,1"),
     (0x103, "10376-1037a:1,1"),
     (0x10a, "10a0d-10a0d:1,1 10a0f-10a0f:1,1 10a38-10a3a:1,1 10a3f-10a3f:1,1 10ae5-10ae6:1,1"),
     (0x10d, "10d24-10d27:1,1"),
     (0x10e, "10eab-10eac:1,1 10efd-10eff:1,1"),
     (0x10f, "10f46-10f50:1,1 10f82-10f85:1,1"),
     (0x110, "11046-11046:1,1 11070-11070:1,1 1107f-1107f:1,1 1109a-1109a:0,1 1109c-1109c:0,1
110ab-110ab:0,1 110b9-110ba:1,1"),
     (0x111, "11100-11102:1,1 11127-11127:1,1 1112e-1112f:0,1 11133-11134:1,1 11173-11173:1,1
111c0-111c0:1,1 111ca-111ca:1,1"),
     (0x112, "11235-11236:1,1 112e9-112ea:1,1"),
     (0x113, "1133b-1133c:1,1 1133e-1133e:1,1 1134b-1134c:0,1 1134d-1134d:1,1 11357-11357:1,1
11366-1136c:1,1 11370-11374:1,1"),
     (0x114, "11442-11442:1,1 11446-11446:1,1 1145e-1145e:1,1 114b0-114b0:1,1 114ba-114ba:1,1
114bb-114bc:0,1 114bd-114bd:1,1 114be-114be:0,1 114c2-114c3:1,1"),
     (0x115, "115af-115af:1,1 115ba-115bb:0,1 115bf-115c0:1,1"),
     (0x116, "1163f-1163f:1,1 116b6-116b7:1,1"),
     (0x117, "1172b-1172b:1,1"),
     (0x118, "11839-1183a:1,1"),
     (0x119, "11930-11930:1,1 11938-11938:0,1 1193d-1193e:1,1 11943-11943:1,1 119e0-119e0:1,1"),
     (0x11a, "11a34-11a34:1,1 11a47-11a47:1,1 11a99-11a99:1,1"),
     (0x11c, "11c3f-11c3f:1,1"),
     (0x11d, "11d42-11d42:1,1 11d44-11d45:1,1 11d97-11d97:1,1"),
     (0x11f, "11f41-11f42:1,1"),
     (0x16a, "16af0-16af4:1,1"),
     (0x16b, "16b30-16b36:1,1"),
     (0x16f, "16ff0-16ff1:1,1"),
     (0x1bc, "1bc9e-1bc9e:1,1"),
     (0x1d1, "1d15e-1d15f:0,1 1d160-1d164:0,2 1d165-1d169:1,1 1d16d-1d172:1,1 1d17b-1d182:1,1
1d185-1d18b:1,1 1d1aa-1d1ad:1,1 1d1bb-1d1bc:0,1 1d1bd-1d1c0:0,2"),
     (0x1d2, "1d242-1d244:1,1"),
     (0x1e0, "1e000-1e006:1,1 1e008-1e018:1,1 1e01b-1e021:1,1 1e023-1e024:1,1 1e026-1e02a:1,1
1e08f-1e08f:1,1"),
     (0x1e1, "1e130-1e136:1,1"),
     (0x1e2, "1e2ae-1e2ae:1,1 1e2ec-1e2ef:1,1"),
     (0x1e4, "1e4ec-1e4ef:1,1"),
     (0x1e8, "1e8d0-1e8d6:1,1"),
     (0x1e9, "1e944-1e94a:1,1"),
     (0x1f2, "1f213-1f213:0,1")]

/-- Full canonical decompositions, block by block: a code point and those that it decomposes into. -/
def decompositionTexts : List (Nat × String) :=
  [(0x0, "c0=41,300 c1=41,301 c2=41,302 c3=41,303 c4=41,308 c5=41,30a c7=43,327 c8=45,300
c9=45,301 ca=45,302 cb=45,308 cc=49,300 cd=49,301 ce=49,302 cf=49,308 d1=4e,303 d2=4f,300
d3=4f,301 d4=4f,302 d5=4f,303 d6=4f,308 d9=55,300 da=55,301 db=55,302 dc=55,308 dd=59,301
e0=61,300 e1=61,301 e2=61,302 e3=61,303 e4=61,308 e5=61,30a e7=63,327 e8=65,300 e9=65,301
ea=65,302 eb=65,308 ec=69,300 ed=69,301 ee=69,302 ef=69,308 f1=6e,303 f2=6f,300 f3=6f,301
f4=6f,302 f5=6f,303 f6=6f,308 f9=75,300 fa=75,301 fb=75,302 fc=75,308 fd=79,301 ff=79,308"),
   (0x1, "100=41,304 101=61,304 102=41,306 103=61,306 104=41,328 105=61,328 106=43,301
107=63,301 108=43,302 109=63,302 10a=43,307 10b=63,307 10c=43,30c 10d=63,30c 10e=44,30c
10f=64,30c 112=45,304 113=65,304 114=45,306 115=65,306 116=45,307 117=65,307 118=45,328
119=65,328 11a=45,30c 11b=65,30c 11c=47,302 11d=67,302 11e=47,306 11f=67,306 120=47,307
121=67,307 122=47,327 123=67,327 124=48,302 125=68,302 128=49,303 129=69,303 12a=49,304
12b=69,304 12c=49,306 12d=69,306 12e=49,328 12f=69,328 130=49,307 134=4a,302 135=6a,302
136=4b,327 137=6b,327 139=4c,301 13a=6c,301 13b=4c,327 13c=6c,327 13d=4c,30c 13e=6c,30c
143=4e,301 144=6e,301 145=4e,327 146=6e,327 147=4e,30c 148=6e,30c 14c=4f,304 14d=6f,304
14e=4f,306 14f=6f,306 150=4f,30b 151=6f,30b 154=52,301 155=72,301 156=52,327 157=72,327
158=52,30c 159=72,30c 15a=53,301 15b=73,301 15c=53,302 15d=73,302 15e=53,327 15f=73,327
160=53,30c 161=73,30c 162=54,327 163=74,327 164=54,30c 165=74,30c 168=55,303 169=75,303
16a=55,304 16b=75,304 16c=55,306 16d=75,306 16e=55,30a 16f=75,30a 170=55,30b 171=75,30b
172=55,328 173=75,328 174=57,302 175=77,302 176=59,302 177=79,302 178=59,308 179=5a,301
17a=7a,301 17b=5a,307 17c=7a,307 17d=5a,30c 17e=7a,30c 1a0=4f,31b 1a1=6f,31b 1af=55,31b
1b0=75,31b 1cd=41,30c 1ce=61,30c 1cf=49,30c 1d0=69,30c 1d1=4f,30c 1d2=6f,30c 1d3=55,30c
1d4=75,30c 1d5=55,308,304 1d6=75,308,304 1d7=55,308,301 1d8=75,308,301 1d9=55,308,30c
1da=75,308,30c 1db=55,308,300 1dc=75,308,300 1de=41,308,304 1df=61,308,304 1e0=41,307,304
1e1=61,307,304 1e2=c6,304 1e3=e6,304 1e6=47,30c 1e7=67,30c 1e8=4b,30c 1e9=6b,30c 1ea=4f,328
1eb=6f,328 1ec=4f,328,304 1ed=6f,328,304 1ee=1b7,30c 1ef=292,30c 1f0=6a,30c 1f4=47,301
1f5=67,301 1f8=4e,300 1f9=6e,300 1fa=41,30a,301 1fb=61,30a,301 1fc=c6,301 1fd=e6,301 1fe=d8,301
1ff=f8,301"),
   (0x2, "200=41,30f 201=61,30f 202=41,311 203=61,311 204=45,30f 205=65,30f 206=45,311
207=65,311 208=49,30f 209=69,30f 20a=49,311 20b=69,311 20c=4f,30f 20d=6f,30f 20e=4f,311
20f=6f,311 210=52,30f 211=72,30f 212=52,311 213=72,311 214=55,30f 215=75,30f 216=55,311
217=75,311 218=53,326 219=73,326 21a=54,326 21b=74,326 21e=48,30c 21f=68,30c 226=41,307
227=61,307 228=45,327 229=65,327 22a=4f,308,304 22b=6f,308,304 22c=4f,303,304 22d=6f,303,304
22e=4f,307 22f=6f,307 230=4f,307,304 231=6f,307,304 232=59,304 233=79,304"),
   (0x3, "340=300 341=301 343=313 344=308,301 374=2b9 37e=3b 385=a8,301 386=391,301 387=b7
388=395,301 389=397,301 38a=399,301 38c=39f,301 38e=3a5,301 38f=3a9,301 390=3b9,308,301
3aa=399,308 3ab=3a5,308 3ac=3b1,301 3ad=3b5,301 3ae=3b7,301 3af=3b9,301 3b0=3c5,308,301
3ca=3b9,308 3cb=3c5,308 3cc=3bf,301 3cd=3c5,301 3ce=3c9,301 3d3=3d2,301 3d4=3d2,308"),
   (0x4, "400=415,300 401=415,308 403=413,301 407=406,308 40c=41a,301 40d=418,300 40e=423,306
419=418,306 439=438,306 450=435,300 451=435,308 453=433,301 457=456,308 45c=43a,301 45d=438,300
45e=443,306 476=474,30f 477=475,30f 4c1=416,306 4c2=436,306 4d0=410,306 4d1=430,306 4d2=410,308
4d3=430,308 4d6=415,306 4d7=435,306 4da=4d8,308 4db=4d9,308 4dc=416,308 4dd=436,308 4de=417,308
4df=437,308 4e2=418,304 4e3=438,304 4e4=418,308 4e5=438,308 4e6=41e,308 4e7=43e,308 4ea=4e8,308
4eb=4e9,308 4ec=42d,308 4ed=44d,308 4ee=423,304 4ef=443,304 4f0=423,308 4f1=443,308 4f2=423,30b
4f3=443,30b 4f4=427,308 4f5=447,308 4f8=42b,308 4f9=44b,308"),
   (0x6, "622=627,653 623=627,654 624=648,654 625=627,655 626=64a,654 6c0=6d5,654 6c2=6c1,654
6d3=6d2,654"),
   (0x9, "929=928,93c 931=930,93c 934=933,93c 958=915,93c 959=916,93c 95a=917,93c 95b=91c,93c
95c=921,93c 95d=922,93c 95e=92b,93c 95f=92f,93c 9cb=9c7,9be 9cc=9c7,9d7 9dc=9a1,9bc 9dd=9a2,9bc
9df=9af,9bc"),
   (0xa, "a33=a32,a3c a36=a38,a3c a59=a16,a3c a5a=a17,a3c a5b=a1c,a3c a5e=a2b,a3c"),
   (0xb, "b48=b47,b56 b4b=b47,b3e b4c=b47,b57 b5c=b21,b3c b5d=b22,b3c b94=b92,bd7 bca=bc6,bbe
bcb=bc7,bbe bcc=bc6,bd7"),
   (0xc, "c48=c46,c56 cc0=cbf,cd5 cc7=cc6,cd5 cc8=cc6,cd6 cca=cc6,cc2 ccb=cc6,cc2,cd5"),
   (0xd, "d4a=d46,d3e d4b=d47,d3e d4c=d46,d57 dda=dd9,dca ddc=dd9,dcf ddd=dd9,dcf,dca
dde=dd9,ddf"),
   (0xf, "f43=f42,fb7 f4d=f4c,fb7 f52=f51,fb7 f57=f56,fb7 f5c=f5b,fb7 f69=f40,fb5 f73=f71,f72
f75=f71,f74 f76=fb2,f80 f78=fb3,f80 f81=f71,f80 f93=f92,fb7 f9d=f9c,fb7 fa2=fa1,fb7 fa7=fa6,fb7
fac=fab,fb7 fb9=f90,fb5"),
   (0x10, "1026=1025,102e"),
   (0x1b, "1b06=1b05,1b35 1b08=1b07,1b35 1b0a=1b09,1b35 1b0c=1b0b,1b35 1b0e=1b0d,1b35
1b12=1b11,1b35 1b3b=1b3a,1b35 1b3d=1b3c,1b35 1b40=1b3e,1b35 1b41=1b3f,1b35 1b43=1b42,1b35"),
   (0x1e, "1e00=41,325 1e01=61,325 1e02=42,307 1e03=62,307 1e04=42,323 1e05=62,323 1e06=42,331
1e07=62,331 1e08=43,327,301 1e09=63,327,301 1e0a=44,307 1e0b=64,307 1e0c=44,323 1e0d=64,323
1e0e=44,331 1e0f=64,331 1e10=44,327 1e11=64,327 1e12=44,32d 1e13=64,32d 1e14=45,304,300
1e15=65,304,300 1e16=45,304,301 1e17=65,304,301 1e18=45,32d 1e19=65,32d 1e1a=45,330 1e1b=65,330
1e1c=45,327,306 1e1d=65,327,306 1e1e=46,307 1e1f=66,307 1e20=47,304 1e21=67,304 1e22=48,307
1e23=68,307 1e24=48,323 1e25=68,323 1e26=48,308 1e27=68,308 1e28=48,327 1e29=68,327 1e2a=48,32e
1e2b=68,32e 1e2c=49,330 1e2d=69,330 1e2e=49,308,301 1e2f=69,308,301 1e30=4b,301 1e31=6b,301
1e32=4b,323 1e33=6b,323 1e34=4b,331 1e35=6b,331 1e36=4c,323 1e37=6c,323 1e38=4c,323,304
1e39=6c,323,304 1e3a=4c,331 1e3b=6c,331 1e3c=4c,32d 1e3d=6c,32d 1e3e=4d,301 1e3f=6d,301
1e40=4d,307 1e41=6d,307 1e42=4d,323 1e43=6d,323 1e44=4e,307 1e45=6e,307 1e46=4e,323 1e47=6e,323
1e48=4e,331 1e49=6e,331 1e4a=4e,32d 1e4b=6e,32d 1e4c=4f,303,301 1e4d=6f,303,301 1e4e=4f,303,308
1e4f=6f,303,308 1e50=4f,304,300 1e51=6f,304,300 1e52=4f,304,301 1e53=6f,304,301 1e54=50,301
1e55=70,301 1e56=50,307 1e57=70,307 1e58=52,307 1e59=72,307 1e5a=52,323 1e5b=72,323
1e5c=52,323,304 1e5d=72,323,304 1e5e=52,331 1e5f=72,331 1e60=53,307 1e61=73,307 1e62=53,323
1e63=73,323 1e64=53,301,307 1e65=73,301,307 1e66=53,30c,307 1e67=73,30c,307 1e68=53,323,307
1e69=73,323,307 1e6a=54,307 1e6b=74,307 1e6c=54,323 1e6d=74,323 1e6e=54,331 1e6f=74,331
1e70=54,32d 1e71=74,32d 1e72=55,324 1e73=75,324 1e74=55,330 1e75=75,330 1e76=55,32d 1e77=75,32d
1e78=55,303,301 1e79=75,303,301 1e7a=55,304,308 1e7b=75,304,308 1e7c=56,303 1e7d=76,303
1e7e=56,323 1e7f=76,323 1e80=57,300 1e81=77,300 1e82=57,301 1e83=77,301 1e84=57,308 1e85=77,308
1e86=57,307 1e87=77,307 1e88=57,323 1e89=77,323 1e8a=58,307 1e8b=78,307 1e8c=58,308 1e8d=78,308
1e8e=59,307 1e8f=79,307 1e90=5a,302 1e91=7a,302 1e92=5a,323 1e93=7a,323 1e94=5a,331 1e95=7a,331
1e96=68,331 1e97=74,308 1e98=77,30a 1e99=79,30a 1e9b=17f,307 1ea0=41,323 1ea1=61,323
1ea2=41,309 1ea3=61,309 1ea4=41,302,301 1ea5=61,302,301 1ea6=41,302,300 1ea7=61,302,300
1ea8=41,302,309 1ea9=61,302,309 1eaa=41,302,303 1eab=61,302,303 1eac=41,323,302 1ead=61,323,302
1eae=41,306,301 1eaf=61,306,301 1eb0=41,306,300 1eb1=61,306,300 1eb2=41,306,309 1eb3=61,306,309
1eb4=41,306,303 1eb5=61,306,303 1eb6=41,323,306 1eb7=61,323,306 1eb8=45,323 1eb9=65,323
1eba=45,309 1ebb=65,309 1ebc=45,303 1ebd=65,303 1ebe=45,302,301 1ebf=65,302,301 1ec0=45,302,300
1ec1=65,302,300 1ec2=45,302,309 1ec3=65,302,309 1ec4=45,302,303 1ec5=65,302,303 1ec6=45,323,302
1ec7=65,323,302 1ec8=49,309 1ec9=69,309 1eca=49,323 1ecb=69,323 1ecc=4f,323 1ecd=6f,323
1ece=4f,309 1ecf=6f,309 1ed0=4f,302,301 1ed1=6f,302,301 1ed2=4f,302,300 1ed3=6f,302,300
1ed4=4f,302,309 1ed5=6f,302,309 1ed6=4f,302,303 1ed7=6f,302,303 1ed8=4f,323,302 1ed9=6f,323,302
1eda=4f,31b,301 1edb=6f,31b,301 1edc=4f,31b,300 1edd=6f,31b,300 1ede=4f,31b,309 1edf=6f,31b,309
1ee0=4f,31b,303 1ee1=6f,31b,303 1ee2=4f,31b,323 1ee3=6f,31b,323 1ee4=55,323 1ee5=75,323
1ee6=55,309 1ee7=75,309 1ee8=55,31b,301 1ee9=75,31b,301 1eea=55,31b,300 1eeb=75,31b,300
1eec=55,31b,309 1eed=75,31b,309 1eee=55,31b,303 1eef=75,31b,303 1ef0=55,31b,323 1ef1=75,31b,323
1ef2=59,300 1ef3=79,300 1ef4=59,323 1ef5=79,323 1ef6=59,309 1ef7=79,309 1ef8=59,303 1ef9=79,303"),
   (0x1f, "1f00=3b1,313 1f01=3b1,314 1f02=3b1,313,300 1f03=3b1,314,300 1f04=3b1,313,301
1f05=3b1,314,301 1f06=3b1,313,342 1f07=3b1,314,342 1f08=391,313 1f09=391,314 1f0a=391,313,300
1f0b=391,314,300 1f0c=391,313,301 1f0d=391,314,301 1f0e=391,313,342 1f0f=391,314,342
1f10=3b5,313 1f11=3b5,314 1f12=3b5,313,300 1f13=3b5,314,300 1f14=3b5,313,301 1f15=3b5,314,301
1f18=395,313 1f19=395,314 1f1a=395,313,300 1f1b=395,314,300 1f1c=395,313,301 1f1d=395,314,301
1f20=3b7,313 1f21=3b7,314 1f22=3b7,313,300 1f23=3b7,314,300 1f24=3b7,313,301 1f25=3b7,314,301
1f26=3b7,313,342 1f27=3b7,314,342 1f28=397,313 1f29=397,314 1f2a=397,313,300 1f2b=397,314,300
1f2c=397,313,301 1f2d=397,314,301 1f2e=397,313,342 1f2f=397,314,342 1f30=3b9,313 1f31=3b9,314
1f32=3b9,313,300 1f33=3b9,314,300 1f34=3b9,313,301 1f35=3b9,314,301 1f36=3b9,313,342
1f37=3b9,314,342 1f38=399,313 1f39=399,314 1f3a=399,313,300 1f3b=399,314,300 1f3c=399,313,301
1f3d=399,314,301 1f3e=399,313,342 1f3f=399,314,342 1f40=3bf,313 1f41=3bf,314 1f42=3bf,313,300
1f43=3bf,314,300 1f44=3bf,313,301 1f45=3bf,314,301 1f48=39f,313 1f49=39f,314 1f4a=39f,313,300
1f4b=39f,314,300 1f4c=39f,313,301 1f4d=39f,314,301 1f50=3c5,313 1f51=3c5,314 1f52=3c5,313,300
1f53=3c5,314,300 1f54=3c5,313,301 1f55=3c5,314,301 1f56=3c5,313,342 1f57=3c5,314,342
1f59=3a5,314 1f5b=3a5,314,300 1f5d=3a5,314,301 1f5f=3a5,314,342 1f60=3c9,313 1f61=3c9,314
1f62=3c9,313,300 1f63=3c9,314,300 1f64=3c9,313,301 1f65=3c9,314,301 1f66=3c9,313,342
1f67=3c9,314,342 1f68=3a9,313 1f69=3a9,314 1f6a=3a9,313,300 1f6b=3a9,314,300 1f6c=3a9,313,301
1f6d=3a9,314,301 1f6e=3a9,313,342 1f6f=3a9,314,342 1f70=3b1,300 1f71=3b1,301 1f72=3b5,300
1f73=3b5,301 1f74=3b7,300 1f75=3b7,301 1f76=3b9,300 1f77=3b9,301 1f78=3bf,300 1f79=3bf,301
1f7a=3c5,300 1f7b=3c5,301 1f7c=3c9,300 1f7d=3c9,301 1f80=3b1,313,345 1f81=3b1,314,345
1f82=3b1,313,300,345 1f83=3b1,314,300,345 1f84=3b1,313,301,345 1f85=3b1,314,301,345
1f86=3b1,313,342,345 1f87=3b1,314,342,345 1f88=391,313,345 1f89=391,314,345
1f8a=391,313,300,345 1f8b=391,314,300,345 1f8c=391,313,301,345 1f8d=391,314,301,345
1f8e=391,313,342,345 1f8f=391,314,342,345 1f90=3b7,313,345 1f91=3b7,314,345
1f92=3b7,313,300,345 1f93=3b7,314,300,345 1f94=3b7,313,301,345 1f95=3b7,314,301,345
1f96=3b7,313,342,345 1f97=3b7,314,342,345 1f98=397,313,345 1f99=397,314,345
1f9a=397,313,300,345 1f9b=397,314,300,345 1f9c=397,313,301,345 1f9d=397,314,301,345
1f9e=397,313,342,345 1f9f=397,314,342,345 1fa0=3c9,313,345 1fa1=3c9,314,345
1fa2=3c9,313,300,345 1fa3=3c9,314,300,345 1fa4=3c9,313,301,345 1fa5=3c9,314,301,345
1fa6=3c9,313,342,345 1fa7=3c9,314,342,345 1fa8=3a9,313,345 1fa9=3a9,314,345
1faa=3a9,313,300,345 1fab=3a9,314,300,345 1fac=3a9,313,301,345 1fad=3a9,314,301,345
1fae=3a9,313,342,345 1faf=3a9,314,342,345 1fb0=3b1,306 1fb1=3b1,304 1fb2=3b1,300,345
1fb3=3b1,345 1fb4=3b1,301,345 1fb6=3b1,342 1fb7=3b1,342,345 1fb8=391,306 1fb9=391,304
1fba=391,300 1fbb=391,301 1fbc=391,345 1fbe=3b9 1fc1=a8,342 1fc2=3b7,300,345 1fc3=3b7,345
1fc4=3b7,301,345 1fc6=3b7,342 1fc7=3b7,342,345 1fc8=395,300 1fc9=395,301 1fca=397,300
1fcb=397,301 1fcc=397,345 1fcd=1fbf,300 1fce=1fbf,301 1fcf=1fbf,342 1fd0=3b9,306 1fd1=3b9,304
1fd2=3b9,308,300 1fd3=3b9,308,301 1fd6=3b9,342 1fd7=3b9,308,342 1fd8=399,306 1fd9=399,304
1fda=399,300 1fdb=399,301 1fdd=1ffe,300 1fde=1ffe,301 1fdf=1ffe,342 1fe0=3c5,306 1fe1=3c5,304
1fe2=3c5,308,300 1fe3=3c5,308,301 1fe4=3c1,313 1fe5=3c1,314 1fe6=3c5,342 1fe7=3c5,308,342
1fe8=3a5,306 1fe9=3a5,304 1fea=3a5,300 1feb=3a5,301 1fec=3a1,314 1fed=a8,300 1fee=a8,301
1fef=60 1ff2=3c9,300,345 1ff3=3c9,345 1ff4=3c9,301,345 1ff6=3c9,342 1ff7=3c9,342,345
1ff8=39f,300 1ff9=39f,301 1ffa=3a9,300 1ffb=3a9,301 1ffc=3a9,345 1ffd=b4"),
   (0x20, "2000=2002 2001=2003"),
   (0x21, "2126=3a9 212a=4b 212b=41,30a 219a=2190,338 219b=2192,338 21ae=2194,338 21cd=21d0,338
21ce=21d4,338 21cf=21d2,338"),
   (0x22, "2204=2203,338 2209=2208,338 220c=220b,338 2224=2223,338 2226=2225,338 2241=223c,338
2244=2243,338 2247=2245,338 2249=2248,338 2260=3d,338 2262=2261,338 226d=224d,338 226e=3c,338
226f=3e,338 2270=2264,338 2271=2265,338 2274=2272,338 2275=2273,338 2278=2276,338 2279=2277,338
2280=227a,338 2281=227b,338 2284=2282,338 2285=2283,338 2288=2286,338 2289=2287,338
22ac=22a2,338 22ad=22a8,338 22ae=22a9,338 22af=22ab,338 22e0=227c,338 22e1=227d,338
22e2=2291,338 22e3=2292,338 22ea=22b2,338 22eb=22b3,338 22ec=22b4,338 22ed=22b5,338"),
   (0x23, "2329=3008 232a=3009"),
   (0x2a, "2adc=2add,338"),
   (0x30, "304c=304b,3099 304e=304d,3099 3050=304f,3099 3052=3051,3099 3054=3053,3099
3056=3055,3099 3058=3057,3099 305a=3059,3099 305c=305b,3099 305e=305d,3099 3060=305f,3099
3062=3061,3099 3065=3064,3099 3067=3066,3099 3069=3068,3099 3070=306f,3099 3071=306f,309a
3073=3072,3099 3074=3072,309a 3076=3075,3099 3077=3075,309a 3079=3078,3099 307a=3078,309a
307c=307b,3099 307d=307b,309a 3094=3046,3099 309e=309d,3099 30ac=30ab,3099 30ae=30ad,3099
30b0=30af,3099 30b2=30b1,3099 30b4=30b3,3099 30b6=30b5,3099 30b8=30b7,3099 30ba=30b9,3099
30bc=30bb,3099 30be=30bd,3099 30c0=30bf,3099 30c2=30c1,3099 30c5=30c4,3099 30c7=30c6,3099
30c9=30c8,3099 30d0=30cf,3099 30d1=30cf,309a 30d3=30d2,3099 30d4=30d2,309a 30d6=30d5,3099
30d7=30d5,309a 30d9=30d8,3099 30da=30d8,309a 30dc=30db,3099 30dd=30db,309a 30f4=30a6,3099
30f7=30ef,3099 30f8=30f0,3099 30f9=30f1,3099 30fa=30f2,3099 30fe=30fd,3099"),
   (0xf9, "f900=8c48 f901=66f4 f902=8eca f903=8cc8 f904=6ed1 f905=4e32 f906=53e5 f907=9f9c
f908=9f9c f909=5951 f90a=91d1 f90b=5587 f90c=5948 f90d=61f6 f90e=7669 f90f=7f85 f910=863f
f911=87ba f912=88f8 f913=908f f914=6a02 f915=6d1b f916=70d9 f917=73de f918=843d f919=916a
f91a=99f1 f91b=4e82 f91c=5375 f91d=6b04 f91e=721b f91f=862d f920=9e1e f921=5d50 f922=6feb
f923=85cd f924=8964 f925=62c9 f926=81d8 f927=881f f928=5eca f929=6717 f92a=6d6a f92b=72fc
f92c=90ce f92d=4f86 f92e=51b7 f92f=52de f930=64c4 f931=6ad3 f932=7210 f933=76e7 f934=8001
f935=8606 f936=865c f937=8def f938=9732 f939=9b6f f93a=9dfa f93b=788c f93c=797f f93d=7da0
f93e=83c9 f93f=9304 f940=9e7f f941=8ad6 f942=58df f943=5f04 f944=7c60 f945=807e f946=7262
f947=78ca f948=8cc2 f949=96f7 f94a=58d8 f94b=5c62 f94c=6a13 f94d=6dda f94e=6f0f f94f=7d2f
f950=7e37 f951=964b f952=52d2 f953=808b f954=51dc f955=51cc f956=7a1c f957=7dbe f958=83f1
f959=9675 f95a=8b80 f95b=62cf f95c=6a02 f95d=8afe f95e=4e39 f95f=5be7 f960=6012 f961=7387
f962=7570 f963=5317 f964=78fb f965=4fbf f966=5fa9 f967=4e0d f968=6ccc f969=6578 f96a=7d22
f96b=53c3 f96c=585e f96d=7701 f96e=8449 f96f=8aaa f970=6bba f971=8fb0 f972=6c88 f973=62fe
f974=82e5 f975=63a0 f976=7565 f977=4eae f978=5169 f979=51c9 f97a=6881 f97b=7ce7 f97c=826f
f97d=8ad2 f97e=91cf f97f=52f5 f980=5442 f981=5973 f982=5eec f983=65c5 f984=6ffe f985=792a
f986=95ad f987=9a6a f988=9e97 f989=9ece f98a=529b f98b=66c6 f98c=6b77 f98d=8f62 f98e=5e74
f98f=6190 f990=6200 f991=649a f992=6f23 f993=7149 f994=7489 f995=79ca f996=7df4 f997=806f
f998=8f26 f999=84ee f99a=9023 f99b=934a f99c=5217 f99d=52a3 f99e=54bd f99f=70c8 f9a0=88c2
f9a1=8aaa f9a2=5ec9 f9a3=5ff5 f9a4=637b f9a5=6bae f9a6=7c3e f9a7=7375 f9a8=4ee4 f9a9=56f9
f9aa=5be7 f9ab=5dba f9ac=601c f9ad=73b2 f9ae=7469 f9af=7f9a f9b0=8046 f9b1=9234 f9b2=96f6
f9b3=9748 f9b4=9818 f9b5=4f8b f9b6=79ae f9b7=91b4 f9b8=96b8 f9b9=60e1 f9ba=4e86 f9bb=50da
f9bc=5bee f9bd=5c3f f9be=6599 f9bf=6a02 f9c0=71ce f9c1=7642 f9c2=84fc f9c3=907c f9c4=9f8d
f9c5=6688 f9c6=962e f9c7=5289 f9c8=677b f9c9=67f3 f9ca=6d41 f9cb=6e9c f9cc=7409 f9cd=7559
f9ce=786b f9cf=7d10 f9d0=985e f9d1=516d f9d2=622e f9d3=9678 f9d4=502b f9d5=5d19 f9d6=6dea
f9d7=8f2a f9d8=5f8b f9d9=6144 f9da=6817 f9db=7387 f9dc=9686 f9dd=5229 f9de=540f f9df=5c65
f9e0=6613 f9e1=674e f9e2=68a8 f9e3=6ce5 f9e4=7406 f9e5=75e2 f9e6=7f79 f9e7=88cf f9e8=88e1
f9e9=91cc f9ea=96e2 f9eb=533f f9ec=6eba f9ed=541d f9ee=71d0 f9ef=7498 f9f0=85fa f9f1=96a3
f9f2=9c57 f9f3=9e9f f9f4=6797 f9f5=6dcb f9f6=81e8 f9f7=7acb f9f8=7b20 f9f9=7c92 f9fa=72c0
f9fb=7099 f9fc=8b58 f9fd=4ec0 f9fe=8336 f9ff=523a"),
   (0xfa, "fa00=5207 fa01=5ea6 fa02=62d3 fa03=7cd6 fa04=5b85 fa05=6d1e fa06=66b4 fa07=8f3b
fa08=884c fa09=964d fa0a=898b fa0b=5ed3 fa0c=5140 fa0d=55c0 fa10=585a fa12=6674 fa15=51de
fa16=732a fa17=76ca fa18=793c fa19=795e fa1a=7965 fa1b=798f fa1c=9756 fa1d=7cbe fa1e=7fbd
fa20=8612 fa22=8af8 fa25=9038 fa26=90fd fa2a=98ef fa2b=98fc fa2c=9928 fa2d=9db4 fa2e=90de
fa2f=96b7 fa30=4fae fa31=50e7 fa32=514d fa33=52c9 fa34=52e4 fa35=5351 fa36=559d fa37=5606
fa38=5668 fa39=5840 fa3a=58a8 fa3b=5c64 fa3c=5c6e fa3d=6094 fa3e=6168 fa3f=618e fa40=61f2
fa41=654f fa42=65e2 fa43=6691 fa44=6885 fa45=6d77 fa46=6e1a fa47=6f22 fa48=716e fa49=722b
fa4a=7422 fa4b=7891 fa4c=793e fa4d=7949 fa4e=7948 fa4f=7950 fa50=7956 fa51=795d fa52=798d
fa53=798e fa54=7a40 fa55=7a81 fa56=7bc0 fa57=7df4 fa58=7e09 fa59=7e41 fa5a=7f72 fa5b=8005
fa5c=81ed fa5d=8279 fa5e=8279 fa5f=8457 fa60=8910 fa61=8996 fa62=8b01 fa63=8b39 fa64=8cd3
fa65=8d08 fa66=8fb6 fa67=9038 fa68=96e3 fa69=97ff fa6a=983b fa6b=6075 fa6c=242ee fa6d=8218
fa70=4e26 fa71=51b5 fa72=5168 fa73=4f80 fa74=5145 fa75=5180 fa76=52c7 fa77=52fa fa78=559d
fa79=5555 fa7a=5599 fa7b=55e2 fa7c=585a fa7d=58b3 fa7e=5944 fa7f=5954 fa80=5a62 fa81=5b28
fa82=5ed2 fa83=5ed9 fa84=5f69 fa85=5fad fa86=60d8 fa87=614e fa88=6108 fa89=618e fa8a=6160
fa8b=61f2 fa8c=6234 fa8d=63c4 fa8e=641c fa8f=6452 fa90=6556 fa91=6674 fa92=6717 fa93=671b
fa94=6756 fa95=6b79 fa96=6bba fa97=6d41 fa98=6edb fa99=6ecb fa9a=6f22 fa9b=701e fa9c=716e
fa9d=77a7 fa9e=7235 fa9f=72af faa0=732a faa1=7471 faa2=7506 faa3=753b faa4=761d faa5=761f
faa6=76ca faa7=76db faa8=76f4 faa9=774a faaa=7740 faab=78cc faac=7ab1 faad=7bc0 faae=7c7b
faaf=7d5b fab0=7df4 fab1=7f3e fab2=8005 fab3=8352 fab4=83ef fab5=8779 fab6=8941 fab7=8986
fab8=8996 fab9=8abf faba=8af8 fabb=8acb fabc=8b01 fabd=8afe fabe=8aed fabf=8b39 fac0=8b8a
fac1=8d08 fac2=8f38 fac3=9072 fac4=9199 fac5=9276 fac6=967c fac7=96e3 fac8=9756 fac9=97db
faca=97ff facb=980b facc=983b facd=9b12 face=9f9c facf=2284a fad0=22844 fad1=233d5 fad2=3b9d
fad3=4018 fad4=4039 fad5=25249 fad6=25cd0 fad7=27ed3 fad8=9f43 fad9=9f8e"),
   (0xfb, "fb1d=5d9,5b4 fb1f=5f2,5b7 fb2a=5e9,5c1 fb2b=5e9,5c2 fb2c=5e9,5bc,5c1
fb2d=5e9,5bc,5c2 fb2e=5d0,5b7 fb2f=5d0,5b8 fb30=5d0,5bc fb31=5d1,5bc fb32=5d2,5bc fb33=5d3,5bc
fb34=5d4,5bc fb35=5d5,5bc fb36=5d6,5bc fb38=5d8,5bc fb39=5d9,5bc fb3a=5da,5bc fb3b=5db,5bc
fb3c=5dc,5bc fb3e=5de,5bc fb40=5e0,5bc fb41=5e1,5bc fb43=5e3,5bc fb44=5e4,5bc fb46=5e6,5bc
fb47=5e7,5bc fb48=5e8,5bc fb49=5e9,5bc fb4a=5ea,5bc fb4b=5d5,5b9 fb4c=5d1,5bf fb4d=5db,5bf
fb4e=5e4,5bf"),
   (0x110, "1109a=11099,110ba 1109c=1109b,110ba 110ab=110a5,110ba"),
   (0x111, "1112e=11131,11127 1112f=11132,11127"),
   (0x113, "1134b=11347,1133e 1134c=11347,11357"),
   (0x114, "114bb=114b9,114ba 114bc=114b9,114b0 114be=114b9,114bd"),
   (0x115, "115ba=115b8,115af 115bb=115b9,115af"),
   (0x119, "11938=11935,11930"),
   (0x1d1, "1d15e=1d157,1d165 1d15f=1d158,1d165 1d160=1d158,1d165,1d16e 1d161=1d158,1d165,1d16f
1d162=1d158,1d165,1d170 1d163=1d158,1d165,1d171 1d164=1d158,1d165,1d172 1d1bb=1d1b9,1d165
1d1bc=1d1ba,1d165 1d1bd=1d1b9,1d165,1d16e 1d1be=1d1ba,1d165,1d16e 1d1bf=1d1b9,1d165,1d16f
1d1c0=1d1ba,1d165,1d16f"),
   (0x2f8, "2f800=4e3d 2f801=4e38 2f802=4e41 2f803=20122 2f804=4f60 2f805=4fae 2f806=4fbb
2f807=5002 2f808=507a 2f809=5099 2f80a=50e7 2f80b=50cf 2f80c=349e 2f80d=2063a 2f80e=514d
2f80f=5154 2f810=5164 2f811=5177 2f812=2051c 2f813=34b9 2f814=5167 2f815=518d 2f816=2054b
2f817=5197 2f818=51a4 2f819=4ecc 2f81a=51ac 2f81b=51b5 2f81c=291df 2f81d=51f5 2f81e=5203
2f81f=34df 2f820=523b 2f821=5246 2f822=5272 2f823=5277 2f824=3515 2f825=52c7 2f826=52c9
2f827=52e4 2f828=52fa 2f829=5305 2f82a=5306 2f82b=5317 2f82c=5349 2f82d=5351 2f82e=535a
2f82f=5373 2f830=537d 2f831=537f 2f832=537f 2f833=537f 2f834=20a2c 2f835=7070 2f836=53ca
2f837=53df 2f838=20b63 2f839=53eb 2f83a=53f1 2f83b=5406 2f83c=549e 2f83d=5438 2f83e=5448
2f83f=5468 2f840=54a2 2f841=54f6 2f842=5510 2f843=5553 2f844=5563 2f845=5584 2f846=5584
2f847=5599 2f848=55ab 2f849=55b3 2f84a=55c2 2f84b=5716 2f84c=5606 2f84d=5717 2f84e=5651
2f84f=5674 2f850=5207 2f851=58ee 2f852=57ce 2f853=57f4 2f854=580d 2f855=578b 2f856=5832
2f857=5831 2f858=58ac 2f859=214e4 2f85a=58f2 2f85b=58f7 2f85c=5906 2f85d=591a 2f85e=5922
2f85f=5962 2f860=216a8 2f861=216ea 2f862=59ec 2f863=5a1b 2f864=5a27 2f865=59d8 2f866=5a66
2f867=36ee 2f868=36fc 2f869=5b08 2f86a=5b3e 2f86b=5b3e 2f86c=219c8 2f86d=5bc3 2f86e=5bd8
2f86f=5be7 2f870=5bf3 2f871=21b18 2f872=5bff 2f873=5c06 2f874=5f53 2f875=5c22 2f876=3781
2f877=5c60 2f878=5c6e 2f879=5cc0 2f87a=5c8d 2f87b=21de4 2f87c=5d43 2f87d=21de6 2f87e=5d6e
2f87f=5d6b 2f880=5d7c 2f881=5de1 2f882=5de2 2f883=382f 2f884=5dfd 2f885=5e28 2f886=5e3d
2f887=5e69 2f888=3862 2f889=22183 2f88a=387c 2f88b=5eb0 2f88c=5eb3 2f88d=5eb6 2f88e=5eca
2f88f=2a392 2f890=5efe 2f891=22331 2f892=22331 2f893=8201 2f894=5f22 2f895=5f22 2f896=38c7
2f897=232b8 2f898=261da 2f899=5f62 2f89a=5f6b 2f89b=38e3 2f89c=5f9a 2f89d=5fcd 2f89e=5fd7
2f89f=5ff9 2f8a0=6081 2f8a1=393a 2f8a2=391c 2f8a3=6094 2f8a4=226d4 2f8a5=60c7 2f8a6=6148
2f8a7=614c 2f8a8=614e 2f8a9=614c 2f8aa=617a 2f8ab=618e 2f8ac=61b2 2f8ad=61a4 2f8ae=61af
2f8af=61de 2f8b0=61f2 2f8b1=61f6 2f8b2=6210 2f8b3=621b 2f8b4=625d 2f8b5=62b1 2f8b6=62d4
2f8b7=6350 2f8b8=22b0c 2f8b9=633d 2f8ba=62fc 2f8bb=6368 2f8bc=6383 2f8bd=63e4 2f8be=22bf1
2f8bf=6422 2f8c0=63c5 2f8c1=63a9 2f8c2=3a2e 2f8c3=6469 2f8c4=647e 2f8c5=649d 2f8c6=6477
2f8c7=3a6c 2f8c8=654f 2f8c9=656c 2f8ca=2300a 2f8cb=65e3 2f8cc=66f8 2f8cd=6649 2f8ce=3b19
2f8cf=6691 2f8d0=3b08 2f8d1=3ae4 2f8d2=5192 2f8d3=5195 2f8d4=6700 2f8d5=669c 2f8d6=80ad
2f8d7=43d9 2f8d8=6717 2f8d9=671b 2f8da=6721 2f8db=675e 2f8dc=6753 2f8dd=233c3 2f8de=3b49
2f8df=67fa 2f8e0=6785 2f8e1=6852 2f8e2=6885 2f8e3=2346d 2f8e4=688e 2f8e5=681f 2f8e6=6914
2f8e7=3b9d 2f8e8=6942 2f8e9=69a3 2f8ea=69ea 2f8eb=6aa8 2f8ec=236a3 2f8ed=6adb 2f8ee=3c18
2f8ef=6b21 2f8f0=238a7 2f8f1=6b54 2f8f2=3c4e 2f8f3=6b72 2f8f4=6b9f 2f8f5=6bba 2f8f6=6bbb
2f8f7=23a8d 2f8f8=21d0b 2f8f9=23afa 2f8fa=6c4e 2f8fb=23cbc 2f8fc=6cbf 2f8fd=6ccd 2f8fe=6c67
2f8ff=6d16"),
   (0x2f9, "2f900=6d3e 2f901=6d77 2f902=6d41 2f903=6d69 2f904=6d78 2f905=6d85 2f906=23d1e
2f907=6d34 2f908=6e2f 2f909=6e6e 2f90a=3d33 2f90b=6ecb 2f90c=6ec7 2f90d=23ed1 2f90e=6df9
2f90f=6f6e 2f910=23f5e 2f911=23f8e 2f912=6fc6 2f913=7039 2f914=701e 2f915=701b 2f916=3d96
2f917=704a 2f918=707d 2f919=7077 2f91a=70ad 2f91b=20525 2f91c=7145 2f91d=24263 2f91e=719c
2f91f=243ab 2f920=7228 2f921=7235 2f922=7250 2f923=24608 2f924=7280 2f925=7295 2f926=24735
2f927=24814 2f928=737a 2f929=738b 2f92a=3eac 2f92b=73a5 2f92c=3eb8 2f92d=3eb8 2f92e=7447
2f92f=745c 2f930=7471 2f931=7485 2f932=74ca 2f933=3f1b 2f934=7524 2f935=24c36 2f936=753e
2f937=24c92 2f938=7570 2f939=2219f 2f93a=7610 2f93b=24fa1 2f93c=24fb8 2f93d=25044 2f93e=3ffc
2f93f=4008 2f940=76f4 2f941=250f3 2f942=250f2 2f943=25119 2f944=25133 2f945=771e 2f946=771f
2f947=771f 2f948=774a 2f949=4039 2f94a=778b 2f94b=4046 2f94c=4096 2f94d=2541d 2f94e=784e
2f94f=788c 2f950=78cc 2f951=40e3 2f952=25626 2f953=7956 2f954=2569a 2f955=256c5 2f956=798f
2f957=79eb 2f958=412f 2f959=7a40 2f95a=7a4a 2f95b=7a4f 2f95c=2597c 2f95d=25aa7 2f95e=25aa7
2f95f=7aee 2f960=4202 2f961=25bab 2f962=7bc6 2f963=7bc9 2f964=4227 2f965=25c80 2f966=7cd2
2f967=42a0 2f968=7ce8 2f969=7ce3 2f96a=7d00 2f96b=25f86 2f96c=7d63 2f96d=4301 2f96e=7dc7
2f96f=7e02 2f970=7e45 2f971=4334 2f972=26228 2f973=26247 2f974=4359 2f975=262d9 2f976=7f7a
2f977=2633e 2f978=7f95 2f979=7ffa 2f97a=8005 2f97b=264da 2f97c=26523 2f97d=8060 2f97e=265a8
2f97f=8070 2f980=2335f 2f981=43d5 2f982=80b2 2f983=8103 2f984=440b 2f985=813e 2f986=5ab5
2f987=267a7 2f988=267b5 2f989=23393 2f98a=2339c 2f98b=8201 2f98c=8204 2f98d=8f9e 2f98e=446b
2f98f=8291 2f990=828b 2f991=829d 2f992=52b3 2f993=82b1 2f994=82b3 2f995=82bd 2f996=82e6
2f997=26b3c 2f998=82e5 2f999=831d 2f99a=8363 2f99b=83ad 2f99c=8323 2f99d=83bd 2f99e=83e7
2f99f=8457 2f9a0=8353 2f9a1=83ca 2f9a2=83cc 2f9a3=83dc 2f9a4=26c36 2f9a5=26d6b 2f9a6=26cd5
2f9a7=452b 2f9a8=84f1 2f9a9=84f3 2f9aa=8516 2f9ab=273ca 2f9ac=8564 2f9ad=26f2c 2f9ae=455d
2f9af=4561 2f9b0=26fb1 2f9b1=270d2 2f9b2=456b 2f9b3=8650 2f9b4=865c 2f9b5=8667 2f9b6=8669
2f9b7=86a9 2f9b8=8688 2f9b9=870e 2f9ba=86e2 2f9bb=8779 2f9bc=8728 2f9bd=876b 2f9be=8786
2f9bf=45d7 2f9c0=87e1 2f9c1=8801 2f9c2=45f9 2f9c3=8860 2f9c4=8863 2f9c5=27667 2f9c6=88d7
2f9c7=88de 2f9c8=4635 2f9c9=88fa 2f9ca=34bb 2f9cb=278ae 2f9cc=27966 2f9cd=46be 2f9ce=46c7
2f9cf=8aa0 2f9d0=8aed 2f9d1=8b8a 2f9d2=8c55 2f9d3=27ca8 2f9d4=8cab 2f9d5=8cc1 2f9d6=8d1b
2f9d7=8d77 2f9d8=27f2f 2f9d9=20804 2f9da=8dcb 2f9db=8dbc 2f9dc=8df0 2f9dd=208de 2f9de=8ed4
2f9df=8f38 2f9e0=285d2 2f9e1=285ed 2f9e2=9094 2f9e3=90f1 2f9e4=9111 2f9e5=2872e 2f9e6=911b
2f9e7=9238 2f9e8=92d7 2f9e9=92d8 2f9ea=927c 2f9eb=93f9 2f9ec=9415 2f9ed=28bfa 2f9ee=958b
2f9ef=4995 2f9f0=95b7 2f9f1=28d77 2f9f2=49e6 2f9f3=96c3 2f9f4=5db2 2f9f5=9723 2f9f6=29145
2f9f7=2921a 2f9f8=4a6e 2f9f9=4a76 2f9fa=97e0 2f9fb=2940a 2f9fc=4ab2 2f9fd=29496 2f9fe=980b
2f9ff=980b"),
   (0x2fa, "2fa00=9829 2fa01=295b6 2fa02=98e2 2fa03=4b33 2fa04=9929 2fa05=99a7 2fa06=99c2
2fa07=99fe 2fa08=4bce 2fa09=29b30 2fa0a=9b12 2fa0b=9c40 2fa0c=9cfd 2fa0d=4cce 2fa0e=4ced
2fa0f=9d67 2fa10=2a0ce 2fa11=4cf8 2fa12=2a105 2fa13=2a20e 2fa14=2a291 2fa15=9ebb 2fa16=4d56
2fa17=9ef9 2fa18=9efe 2fa19=9f05 2fa1a=9f0f 2fa1b=9f16 2fa1c=9f3b 2fa1d=2a600")]

/-- The decompositions of one block. -/
def decompositionsOf (text : String) : RangeTable (List Nat) where
  rows := ((entriesOf text).map fun row =>
    let code := hexNat (row.takeWhile (· != '='))
    { first := code, last := code
      value := (((row.dropWhile (· != '=')).drop 1).splitOn ',').map hexNat }).toArray

/-- Full canonical decompositions. -/
def decompositionTable : PagedTable (List Nat) where
  pages := decompositionTexts.map fun (page, text) => (page, decompositionsOf text)

/-- The pairs that compose: the first code point, and each second one with the composite. The two of
a pair are given by their lower sixteen bits. -/
def compositionText : String := "
3c:338=226e 3d:338=2260 3e:338=226f
41:300=c0,301=c1,302=c2,303=c3,308=c4,30a=c5,304=100,306=102,328=104,30c=1cd,30f=200,311=202,307=226,325=1e00,323=1ea0,309=1ea2
42:307=1e02,323=1e04,331=1e06 43:327=c7,301=106,302=108,307=10a,30c=10c
44:30c=10e,307=1e0a,323=1e0c,331=1e0e,327=1e10,32d=1e12
45:300=c8,301=c9,302=ca,308=cb,304=112,306=114,307=116,328=118,30c=11a,30f=204,311=206,327=228,32d=1e18,330=1e1a,323=1eb8,309=1eba,303=1ebc
46:307=1e1e 47:302=11c,306=11e,307=120,327=122,30c=1e6,301=1f4,304=1e20
48:302=124,30c=21e,307=1e22,323=1e24,308=1e26,327=1e28,32e=1e2a
49:300=cc,301=cd,302=ce,308=cf,303=128,304=12a,306=12c,328=12e,307=130,30c=1cf,30f=208,311=20a,330=1e2c,309=1ec8,323=1eca
4a:302=134 4b:327=136,30c=1e8,301=1e30,323=1e32,331=1e34
4c:301=139,327=13b,30c=13d,323=1e36,331=1e3a,32d=1e3c 4d:301=1e3e,307=1e40,323=1e42
4e:303=d1,301=143,327=145,30c=147,300=1f8,307=1e44,323=1e46,331=1e48,32d=1e4a
4f:300=d2,301=d3,302=d4,303=d5,308=d6,304=14c,306=14e,30b=150,31b=1a0,30c=1d1,328=1ea,30f=20c,311=20e,307=22e,323=1ecc,309=1ece
50:301=1e54,307=1e56 52:301=154,327=156,30c=158,30f=210,311=212,307=1e58,323=1e5a,331=1e5e
53:301=15a,302=15c,327=15e,30c=160,326=218,307=1e60,323=1e62
54:327=162,30c=164,326=21a,307=1e6a,323=1e6c,331=1e6e,32d=1e70
55:300=d9,301=da,302=db,308=dc,303=168,304=16a,306=16c,30a=16e,30b=170,328=172,31b=1af,30c=1d3,30f=214,311=216,324=1e72,330=1e74,32d=1e76,323=1ee4,309=1ee6
56:303=1e7c,323=1e7e 57:302=174,300=1e80,301=1e82,308=1e84,307=1e86,323=1e88
58:307=1e8a,308=1e8c
59:301=dd,302=176,308=178,304=232,307=1e8e,300=1ef2,323=1ef4,309=1ef6,303=1ef8
5a:301=179,307=17b,30c=17d,302=1e90,323=1e92,331=1e94
61:300=e0,301=e1,302=e2,303=e3,308=e4,30a=e5,304=101,306=103,328=105,30c=1ce,30f=201,311=203,307=227,325=1e01,323=1ea1,309=1ea3
62:307=1e03,323=1e05,331=1e07 63:327=e7,301=107,302=109,307=10b,30c=10d
64:30c=10f,307=1e0b,323=1e0d,331=1e0f,327=1e11,32d=1e13
65:300=e8,301=e9,302=ea,308=eb,304=113,306=115,307=117,328=119,30c=11b,30f=205,311=207,327=229,32d=1e19,330=1e1b,323=1eb9,309=1ebb,303=1ebd
66:307=1e1f 67:302=11d,306=11f,307=121,327=123,30c=1e7,301=1f5,304=1e21
68:302=125,30c=21f,307=1e23,323=1e25,308=1e27,327=1e29,32e=1e2b,331=1e96
69:300=ec,301=ed,302=ee,308=ef,303=129,304=12b,306=12d,328=12f,30c=1d0,30f=209,311=20b,330=1e2d,309=1ec9,323=1ecb
6a:302=135,30c=1f0 6b:327=137,30c=1e9,301=1e31,323=1e33,331=1e35
6c:301=13a,327=13c,30c=13e,323=1e37,331=1e3b,32d=1e3d 6d:301=1e3f,307=1e41,323=1e43
6e:303=f1,301=144,327=146,30c=148,300=1f9,307=1e45,323=1e47,331=1e49,32d=1e4b
6f:300=f2,301=f3,302=f4,303=f5,308=f6,304=14d,306=14f,30b=151,31b=1a1,30c=1d2,328=1eb,30f=20d,311=20f,307=22f,323=1ecd,309=1ecf
70:301=1e55,307=1e57 72:301=155,327=157,30c=159,30f=211,311=213,307=1e59,323=1e5b,331=1e5f
73:301=15b,302=15d,327=15f,30c=161,326=219,307=1e61,323=1e63
74:327=163,30c=165,326=21b,307=1e6b,323=1e6d,331=1e6f,32d=1e71,308=1e97
75:300=f9,301=fa,302=fb,308=fc,303=169,304=16b,306=16d,30a=16f,30b=171,328=173,31b=1b0,30c=1d4,30f=215,311=217,324=1e73,330=1e75,32d=1e77,323=1ee5,309=1ee7
76:303=1e7d,323=1e7f 77:302=175,300=1e81,301=1e83,308=1e85,307=1e87,323=1e89,30a=1e98
78:307=1e8b,308=1e8d
79:301=fd,308=ff,302=177,304=233,307=1e8f,30a=1e99,300=1ef3,323=1ef5,309=1ef7,303=1ef9
7a:301=17a,307=17c,30c=17e,302=1e91,323=1e93,331=1e95 a8:301=385,342=1fc1,300=1fed
c2:301=1ea4,300=1ea6,309=1ea8,303=1eaa c4:304=1de c5:301=1fa c6:304=1e2,301=1fc c7:301=1e08
ca:301=1ebe,300=1ec0,309=1ec2,303=1ec4 cf:301=1e2e d4:301=1ed0,300=1ed2,309=1ed4,303=1ed6
d5:304=22c,301=1e4c,308=1e4e d6:304=22a d8:301=1fe dc:304=1d5,301=1d7,30c=1d9,300=1db
e2:301=1ea5,300=1ea7,309=1ea9,303=1eab e4:304=1df e5:301=1fb e6:304=1e3,301=1fd e7:301=1e09
ea:301=1ebf,300=1ec1,309=1ec3,303=1ec5 ef:301=1e2f f4:301=1ed1,300=1ed3,309=1ed5,303=1ed7
f5:304=22d,301=1e4d,308=1e4f f6:304=22b f8:301=1ff fc:304=1d6,301=1d8,30c=1da,300=1dc
102:301=1eae,300=1eb0,309=1eb2,303=1eb4 103:301=1eaf,300=1eb1,309=1eb3,303=1eb5
112:300=1e14,301=1e16 113:300=1e15,301=1e17 14c:300=1e50,301=1e52 14d:300=1e51,301=1e53
15a:307=1e64 15b:307=1e65 160:307=1e66 161:307=1e67 168:301=1e78 169:301=1e79 16a:308=1e7a
16b:308=1e7b 17f:307=1e9b 1a0:301=1eda,300=1edc,309=1ede,303=1ee0,323=1ee2
1a1:301=1edb,300=1edd,309=1edf,303=1ee1,323=1ee3
1af:301=1ee8,300=1eea,309=1eec,303=1eee,323=1ef0
1b0:301=1ee9,300=1eeb,309=1eed,303=1eef,323=1ef1 1b7:30c=1ee 1ea:304=1ec 1eb:304=1ed
226:304=1e0 227:304=1e1 228:306=1e1c 229:306=1e1d 22e:304=230 22f:304=231 292:30c=1ef
391:301=386,313=1f08,314=1f09,306=1fb8,304=1fb9,300=1fba,345=1fbc
395:301=388,313=1f18,314=1f19,300=1fc8 397:301=389,313=1f28,314=1f29,300=1fca,345=1fcc
399:301=38a,308=3aa,313=1f38,314=1f39,306=1fd8,304=1fd9,300=1fda
39f:301=38c,313=1f48,314=1f49,300=1ff8 3a1:314=1fec
3a5:301=38e,308=3ab,314=1f59,306=1fe8,304=1fe9,300=1fea
3a9:301=38f,313=1f68,314=1f69,300=1ffa,345=1ffc 3ac:345=1fb4 3ae:345=1fc4
3b1:301=3ac,313=1f00,314=1f01,300=1f70,306=1fb0,304=1fb1,345=1fb3,342=1fb6
3b5:301=3ad,313=1f10,314=1f11,300=1f72
3b7:301=3ae,313=1f20,314=1f21,300=1f74,345=1fc3,342=1fc6
3b9:301=3af,308=3ca,313=1f30,314=1f31,300=1f76,306=1fd0,304=1fd1,342=1fd6
3bf:301=3cc,313=1f40,314=1f41,300=1f78 3c1:313=1fe4,314=1fe5
3c5:308=3cb,301=3cd,313=1f50,314=1f51,300=1f7a,306=1fe0,304=1fe1,342=1fe6
3c9:301=3ce,313=1f60,314=1f61,300=1f7c,345=1ff3,342=1ff6 3ca:301=390,300=1fd2,342=1fd7
3cb:301=3b0,300=1fe2,342=1fe7 3ce:345=1ff4 3d2:301=3d3,308=3d4 406:308=407
410:306=4d0,308=4d2 413:301=403 415:300=400,308=401,306=4d6 416:306=4c1,308=4dc 417:308=4de
418:300=40d,306=419,304=4e2,308=4e4 41a:301=40c 41e:308=4e6
423:306=40e,304=4ee,308=4f0,30b=4f2 427:308=4f4 42b:308=4f8 42d:308=4ec 430:306=4d1,308=4d3
433:301=453 435:300=450,308=451,306=4d7 436:306=4c2,308=4dd 437:308=4df
438:306=439,300=45d,304=4e3,308=4e5 43a:301=45c 43e:308=4e7
443:306=45e,304=4ef,308=4f1,30b=4f3 447:308=4f5 44b:308=4f9 44d:308=4ed 456:308=457
474:30f=476 475:30f=477 4d8:308=4da 4d9:308=4db 4e8:308=4ea 4e9:308=4eb
627:653=622,654=623,655=625 648:654=624 64a:654=626 6c1:654=6c2 6d2:654=6d3 6d5:654=6c0
928:93c=929 930:93c=931 933:93c=934 9c7:9be=9cb,9d7=9cc b47:b56=b48,b3e=b4b,b57=b4c
b92:bd7=b94 bc6:bbe=bca,bd7=bcc bc7:bbe=bcb c46:c56=c48 cbf:cd5=cc0
cc6:cd5=cc7,cd6=cc8,cc2=cca cca:cd5=ccb d46:d3e=d4a,d57=d4c d47:d3e=d4b
dd9:dca=dda,dcf=ddc,ddf=dde ddc:dca=ddd 1025:102e=1026 1099:10ba=1109a 109b:10ba=1109c
10a5:10ba=110ab 1131:1127=1112e 1132:1127=1112f 1347:133e=1134b,1357=1134c
14b9:14ba=114bb,14b0=114bc,14bd=114be 15b8:15af=115ba 15b9:15af=115bb 1935:1930=11938
1b05:1b35=1b06 1b07:1b35=1b08 1b09:1b35=1b0a 1b0b:1b35=1b0c 1b0d:1b35=1b0e 1b11:1b35=1b12
1b3a:1b35=1b3b 1b3c:1b35=1b3d 1b3e:1b35=1b40 1b3f:1b35=1b41 1b42:1b35=1b43 1e36:304=1e38
1e37:304=1e39 1e5a:304=1e5c 1e5b:304=1e5d 1e62:307=1e68 1e63:307=1e69 1ea0:302=1eac,306=1eb6
1ea1:302=1ead,306=1eb7 1eb8:302=1ec6 1eb9:302=1ec7 1ecc:302=1ed8 1ecd:302=1ed9
1f00:300=1f02,301=1f04,342=1f06,345=1f80 1f01:300=1f03,301=1f05,342=1f07,345=1f81
1f02:345=1f82 1f03:345=1f83 1f04:345=1f84 1f05:345=1f85 1f06:345=1f86 1f07:345=1f87
1f08:300=1f0a,301=1f0c,342=1f0e,345=1f88 1f09:300=1f0b,301=1f0d,342=1f0f,345=1f89
1f0a:345=1f8a 1f0b:345=1f8b 1f0c:345=1f8c 1f0d:345=1f8d 1f0e:345=1f8e 1f0f:345=1f8f
1f10:300=1f12,301=1f14 1f11:300=1f13,301=1f15 1f18:300=1f1a,301=1f1c 1f19:300=1f1b,301=1f1d
1f20:300=1f22,301=1f24,342=1f26,345=1f90 1f21:300=1f23,301=1f25,342=1f27,345=1f91
1f22:345=1f92 1f23:345=1f93 1f24:345=1f94 1f25:345=1f95 1f26:345=1f96 1f27:345=1f97
1f28:300=1f2a,301=1f2c,342=1f2e,345=1f98 1f29:300=1f2b,301=1f2d,342=1f2f,345=1f99
1f2a:345=1f9a 1f2b:345=1f9b 1f2c:345=1f9c 1f2d:345=1f9d 1f2e:345=1f9e 1f2f:345=1f9f
1f30:300=1f32,301=1f34,342=1f36 1f31:300=1f33,301=1f35,342=1f37
1f38:300=1f3a,301=1f3c,342=1f3e 1f39:300=1f3b,301=1f3d,342=1f3f 1f40:300=1f42,301=1f44
1f41:300=1f43,301=1f45 1f48:300=1f4a,301=1f4c 1f49:300=1f4b,301=1f4d
1f50:300=1f52,301=1f54,342=1f56 1f51:300=1f53,301=1f55,342=1f57
1f59:300=1f5b,301=1f5d,342=1f5f 1f60:300=1f62,301=1f64,342=1f66,345=1fa0
1f61:300=1f63,301=1f65,342=1f67,345=1fa1 1f62:345=1fa2 1f63:345=1fa3 1f64:345=1fa4
1f65:345=1fa5 1f66:345=1fa6 1f67:345=1fa7 1f68:300=1f6a,301=1f6c,342=1f6e,345=1fa8
1f69:300=1f6b,301=1f6d,342=1f6f,345=1fa9 1f6a:345=1faa 1f6b:345=1fab 1f6c:345=1fac
1f6d:345=1fad 1f6e:345=1fae 1f6f:345=1faf 1f70:345=1fb2 1f74:345=1fc2 1f7c:345=1ff2
1fb6:345=1fb7 1fbf:300=1fcd,301=1fce,342=1fcf 1fc6:345=1fc7 1ff6:345=1ff7
1ffe:300=1fdd,301=1fde,342=1fdf 2190:338=219a 2192:338=219b 2194:338=21ae 21d0:338=21cd
21d2:338=21cf 21d4:338=21ce 2203:338=2204 2208:338=2209 220b:338=220c 2223:338=2224
2225:338=2226 223c:338=2241 2243:338=2244 2245:338=2247 2248:338=2249 224d:338=226d
2261:338=2262 2264:338=2270 2265:338=2271 2272:338=2274 2273:338=2275 2276:338=2278
2277:338=2279 227a:338=2280 227b:338=2281 227c:338=22e0 227d:338=22e1 2282:338=2284
2283:338=2285 2286:338=2288 2287:338=2289 2291:338=22e2 2292:338=22e3 22a2:338=22ac
22a8:338=22ad 22a9:338=22ae 22ab:338=22af 22b2:338=22ea 22b3:338=22eb 22b4:338=22ec
22b5:338=22ed 3046:3099=3094 304b:3099=304c 304d:3099=304e 304f:3099=3050 3051:3099=3052
3053:3099=3054 3055:3099=3056 3057:3099=3058 3059:3099=305a 305b:3099=305c 305d:3099=305e
305f:3099=3060 3061:3099=3062 3064:3099=3065 3066:3099=3067 3068:3099=3069
306f:3099=3070,309a=3071 3072:3099=3073,309a=3074 3075:3099=3076,309a=3077
3078:3099=3079,309a=307a 307b:3099=307c,309a=307d 309d:3099=309e 30a6:3099=30f4
30ab:3099=30ac 30ad:3099=30ae 30af:3099=30b0 30b1:3099=30b2 30b3:3099=30b4 30b5:3099=30b6
30b7:3099=30b8 30b9:3099=30ba 30bb:3099=30bc 30bd:3099=30be 30bf:3099=30c0 30c1:3099=30c2
30c4:3099=30c5 30c6:3099=30c7 30c8:3099=30c9 30cf:3099=30d0,309a=30d1
30d2:3099=30d3,309a=30d4 30d5:3099=30d6,309a=30d7 30d8:3099=30d9,309a=30da
30db:3099=30dc,309a=30dd 30ef:3099=30f7 30f0:3099=30f8 30f1:3099=30f9 30f2:3099=30fa
30fd:3099=30fe"

/-- The pairs that compose, by the lower sixteen bits of their first character, each with those of
its second one and the composite. -/
def compositionTable : RangeTable (List (Nat × Nat)) where
  rows := ((entriesOf compositionText).map fun row =>
    let code := hexNat (row.takeWhile (· != ':'))
    { first := code, last := code
      value := (((row.dropWhile (· != ':')).drop 1).splitOn ',').map fun pair =>
        (hexNat (pair.takeWhile (· != '=')), hexNat ((pair.dropWhile (· != '=')).drop 1)) }).toArray

end CodeEmission.Text
