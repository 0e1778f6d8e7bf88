import Reconcile.Text.CharSet

/-!
# Text/CharColumns — the display columns of single characters

A wide character takes two columns, a mark that joins the character before it takes none, any other
character takes one.  A code point without a character takes what the one before it takes.
-/

namespace Reconcile

/-- Characters that take two columns (East Asian Width W or F). -/
def wideCharacters : CharSet := CharSet.ofHex
  "1100-115F 231A-231B 2329-232A 23E9-23EC 23F0 23F3 25FD-25FE 2614-2615 2630-2637 2648-2653
    267F 268A-268F 2693 26A1 26AA-26AB 26BD-26BE 26C4-26C5 26CE 26D4 26EA 26F2-26F3 26F5 26FA
    26FD 2705 270A-270B 2728 274C 274E 2753-2755 2757 2795-2797 27B0 27BF 2B1B-2B1C 2B50 2B55
    2E80-3029 3030-303E 3041-3098 309B-3163 3165-3247 3250-A4CF A960-A97F AC00-D7AF F900-FAFF
    FE10-FE1F FE30-FE6F FF01-FF60 FFE0-FFE7 16FE0-16FE3 16FF2-1BBFF 1D300-1D376 1F004
    1F0CF-1F0D0 1F18E 1F191-1F19A 1F200-1F320 1F32D-1F335 1F337-1F37C 1F37E-1F393 1F3A0-1F3CA
    1F3CF-1F3D3 1F3E0-1F3F0 1F3F4 1F3F8-1F43E 1F440 1F442-1F4FC 1F4FF-1F53D 1F54B-1F54E
    1F550-1F567 1F57A 1F595-1F596 1F5A4 1F5FB-1F64F 1F680-1F6C5 1F6CC 1F6D0-1F6D2 1F6D5-1F6DF
    1F6EB-1F6EF 1F6F4-1F6FF 1F7E0-1F7FF 1F90C-1F93A 1F93C-1F945 1F947-1F9FF 1FA70-1FAFF
    20000-2FFFD 30000-3FFFD"

/-- Characters without a column that leave the letters around them joined (Joining Type T). -/
def markCharacters : CharSet := CharSet.ofHex
  "AD 300-36F 483-489 591-5BD 5BF 5C1-5C2 5C4-5C5 5C7 610-61A 61C 64B-65F 670 6D6-6DC 6DF-6E4
    6E7-6E8 6EA-6ED 70F 711 730-74A 7A6-7B0 7EB-7F3 7FD 816-819 81B-823 825-827 829-82D
    859-85B 897-89F 8CA-8E1 8E3-902 93A 93C 941-948 94D 951-957 962-963 981 9BC 9C1-9C4 9CD
    9E2-9E3 9FE A01-A02 A3C A41-A42 A47-A48 A4B-A4D A51 A70-A71 A75 A81-A82 ABC AC1-AC5
    AC7-AC8 ACD AE2-AE3 AFA-AFF B01 B3C B3F B41-B44 B4D B55-B56 B62-B63 B82 BC0 BCD C00 C04
    C3C C3E-C40 C46-C48 C4A-C4D C55-C56 C62-C63 C81 CBC CBF CC6 CCC-CCD CE2-CE3 D00-D01
    D3B-D3C D41-D44 D4D D62-D63 D81 DCA DD2-DD4 DD6 E31 E34-E3A E47-E4E EB1 EB4-EBC EC8-ECE
    F18-F19 F35 F37 F39 F71-F7E F80-F84 F86-F87 F8D-F97 F99-FBC FC6 102D-1030 1032-1037
    1039-103A 103D-103E 1058-1059 105E-1060 1071-1074 1082 1085-1086 108D 109D 135D-135F
    1712-1714 1732-1733 1752-1753 1772-1773 17B4-17B5 17B7-17BD 17C6 17C9-17D3 17DD 180B-180D
    180F 1885-1886 18A9 1920-1922 1927-1928 1932 1939-193B 1A17-1A18 1A1B 1A56 1A58-1A5E 1A60
    1A62 1A65-1A6C 1A73-1A7C 1A7F 1AB0-1ADD 1AE0-1AEB 1B00-1B03 1B34 1B36-1B3A 1B3C 1B42
    1B6B-1B73 1B80-1B81 1BA2-1BA5 1BA8-1BA9 1BAB-1BAD 1BE6 1BE8-1BE9 1BED 1BEF-1BF1 1C2C-1C33
    1C36-1C37 1CD0-1CD2 1CD4-1CE0 1CE2-1CE8 1CED 1CF4 1CF8-1CF9 1DC0-1DFF 200B 200E-200F
    202A-202E 2060-2064 206A-206F 20D0-20F0 2CEF-2CF1 2DE0-2DFF 302A-302D 3099-309A A66F-A672
    A674-A67D A69E-A69F A6F0-A6F1 A802 A806 A80B A825-A826 A82C A8C4-A8C5 A8E0-A8F1 A8FF
    A926-A92D A947-A951 A980-A982 A9B3 A9B6-A9B9 A9BC-A9BD A9E5 AA29-AA2E AA31-AA32 AA35-AA36
    AA43 AA4C AA7C AAB0 AAB2-AAB4 AAB7-AAB8 AABE-AABF AAC1 AAEC-AAED AAF6 ABE5 ABE8 ABED FB1E
    FE00-FE0F FE20-FE2F FEFF 101FD 102E0 10376-1037A 10A01-10A03 10A05-10A06 10A0C-10A0F
    10A38-10A3A 10A3F 10AE5-10AE6 10D24-10D27 10D69-10D6D 10EAB-10EAC 10EFA-10EFF 10F46-10F50
    10F82-10F85 11001 11038-11046 11070 11073-11074 1107F-11081 110B3-110B6 110B9-110BA 110C2
    11100-11102 11127-1112B 1112D-11134 11173 11180-11181 111B6-111BE 111C9-111CC 111CF
    1122F-11231 11234 11236-11237 1123E 11241 112DF 112E3-112EA 11300-11301 1133B-1133C 11340
    11366-1136C 11370-11374 113BB-113C0 113CE 113D0 113D2 113E1-113E2 11438-1143F 11442-11444
    11446 1145E 114B3-114B8 114BA 114BF-114C0 114C2-114C3 115B2-115B5 115BC-115BD 115BF-115C0
    115DC-115DD 11633-1163A 1163D 1163F-11640 116AB 116AD 116B0-116B5 116B7 1171D 1171F
    11722-11725 11727-1172B 1182F-11837 11839-1183A 1193B-1193C 1193E 11943 119D4-119D7
    119DA-119DB 119E0 11A01-11A0A 11A33-11A38 11A3B-11A3E 11A47 11A51-11A56 11A59-11A5B
    11A8A-11A96 11A98-11A99 11B60 11B62-11B64 11B66 11C30-11C36 11C38-11C3D 11C3F 11C92-11CA7
    11CAA-11CB0 11CB2-11CB3 11CB5-11CB6 11D31-11D36 11D3A 11D3C-11D3D 11D3F-11D45 11D47
    11D90-11D91 11D95 11D97 11EF3-11EF4 11F00-11F01 11F36-11F3A 11F40 11F42 11F5A 13440
    13447-13455 1611E-16129 1612D-1612F 16AF0-16AF4 16B30-16B36 16F4F 16F8F-16F92 16FE4
    1BC9D-1BC9E 1BCA0-1BCA3 1CF00-1CF2D 1CF30-1CF46 1D167-1D169 1D173-1D182 1D185-1D18B
    1D1AA-1D1AD 1D242-1D244 1DA00-1DA36 1DA3B-1DA6C 1DA75 1DA84 1DA9B-1DA9F 1DAA1-1DAAF
    1E000-1E006 1E008-1E018 1E01B-1E021 1E023-1E024 1E026-1E02A 1E08F 1E130-1E136 1E2AE
    1E2EC-1E2EF 1E4EC-1E4EF 1E5EE-1E5EF 1E6E3 1E6E6 1E6EE-1E6EF 1E6F5 1E8D0-1E8D6 1E944-1E94A
    E0001 E0020-E007F E0100-E01EF"

/-- Other characters without a column: signs that part letters, vowels inside a syllable, and code
points behind marks. -/
def emptyCharacters : CharSet := CharSet.ofHex
  "5C8-5CF 605 74B-74C 82E-82F 85C-85D 890-896 8E2 9BE 9C5-9C6 9D7-9DB 9E4-9E5 9FF-A00 A3D
    A43-A46 A49-A4A A4E-A50 A52-A58 AC6 ACE-ACF AE4-AE5 B00 B3E B45-B46 B4E-B54 B57-B5B
    B64-B65 BBE BCE-BCF BD7-BE5 C49 C4E-C54 C57 C64-C65 CC0 CC2 CC7-CCB CCE-CDB CE4-CE5 D3E
    D45 D4E D57 D64-D65 DCB-DCF DD5 DD7 DDF-DE5 E3B-E3E ECF F98 FBD 1160-11FF 1715-171E 1734
    1754-175F 1774-177F 17DE-17DF 180E 193C-193F 1A1C-1A1D 1A5F 1A7D-1A7E 1ADE-1ADF 1AEC-1AFF
    1B35 1B3B 1B3D 1B43-1B44 1BAA 1BF2-1BFB 1C38-1C3A 200C-200D 2065-2069 20F1-20FF 302E-302F
    3164 A82D-A82F A8C6-A8CD A8FA A953-A95E A9C0 AA37-AA3F AAF7-AB00 ABEE-ABEF D7B0-D7FF FF00
    FFA0 FFF0-FFF8 101FE-1027F 1037B-1037F 10A04 10A07-10A0B 10A3B-10A3E 10AE7-10AEA
    10D28-10D2F 110C3-110CC 11135 111C0 111C2-111C3 11235 11242-1127F 112EB-112EF 1133E
    1134D-1134F 11357-1135C 1136D-1136F 11375-1137F 113B8 113C1-113C9 113CF 113D1 113E3-113FF
    114B0 114BD 115AF 115B6-115B7 115DE-115FF 116B6 1172C-1172F 11930 1193D 1193F 11941
    119D8-119D9 11A48-11A4F 11A84-11A89 11C37 11CA8 11CB7-11CFF 11D37-11D39 11D3B 11D3E 11D46
    11D48-11D4F 11D92 11F02 11F3B-11F3D 11F41 11F5B-11FAF 13456-1345F 16FE5-16FF1 1BCA4-1CBFF
    1CF2E-1CF2F 1CF47-1CF4F 1D165-1D166 1D16D-1D172 1DAA0 1DAB0-1DEFF 1E007 1E019-1E01A 1E022
    1E025 1E02B-1E02F 1E090-1E0FF 1E2AF-1E2BF 1E6F6-1E6FD 1E8D7-1E8FF E0000 E0002-E001F
    E0080-E00FF E01F0-E0FFF"

/-- A character takes no column of its own. -/
def isColumnless (c : Char) : Bool := markCharacters.contains c || emptyCharacters.contains c

/-- The columns of a character that stands alone. -/
def charColumns (c : Char) : Nat :=
  if c.toNat < 0xA1 then 1
  else if isColumnless c then 0
  else if c.toNat == 0x17D8 then 3
  else if c.toNat == 0x17A4 || wideCharacters.contains c then 2
  else 1

end Reconcile
