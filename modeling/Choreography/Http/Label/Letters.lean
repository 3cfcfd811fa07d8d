import Choreography.Text.Case
import Choreography.Text.Printable
import Choreography.Text.Script

/-! The letters of which the labels of a host consist: small letters and digits of all
scripts, marks on them, and hyphens. Letters that are only forms of others are left out. -/

namespace Choreography.Http.Label

open Text (Letter)

/-- The letters that labels may have once they are small, as ranges with both ends included.
The ranges reach over code points without a visible form. -/
def letterRanges : Array (Letter × Letter) := #[
  (45, 45), (48, 57), (65, 90), (97, 122), (192, 214), (216, 246), (248, 305), (308, 318),
  (321, 328), (330, 382), (384, 451), (461, 496), (500, 687), (697, 705), (710, 721), (748, 748),
  (750, 750), (768, 831), (834, 834), (838, 846), (848, 883), (886, 887), (891, 893), (895, 895),
  (902, 902), (904, 975), (983, 1007), (1011, 1012), (1015, 1016), (1018, 1153), (1155, 1159),
  (1162, 1369), (1376, 1414), (1416, 1416), (1425, 1469), (1471, 1471), (1473, 1474),
  (1476, 1477), (1479, 1522), (1552, 1562), (1568, 1599), (1601, 1631), (1646, 1652),
  (1657, 1747), (1749, 1756), (1759, 1768), (1770, 1775), (1786, 1791), (1808, 2037),
  (2045, 2045), (2048, 2093), (2112, 2139), (2144, 2183), (2185, 2391), (2400, 2403),
  (2406, 2415), (2417, 2519), (2528, 2545), (2556, 2556), (2558, 2610), (2613, 2613),
  (2616, 2641), (2652, 2652), (2662, 2677), (2689, 2799), (2809, 2903), (2911, 2927),
  (2929, 2929), (2946, 3055), (3072, 3183), (3200, 3203), (3205, 3406), (3412, 3415),
  (3423, 3439), (3450, 3571), (3585, 3634), (3636, 3642), (3648, 3662), (3664, 3673),
  (3713, 3762), (3764, 3801), (3806, 3840), (3851, 3851), (3864, 3865), (3872, 3881),
  (3893, 3893), (3895, 3895), (3897, 3897), (3902, 3906), (3908, 3916), (3918, 3921),
  (3923, 3926), (3928, 3931), (3933, 3944), (3946, 3954), (3956, 3956), (3962, 3968),
  (3970, 3972), (3974, 3986), (3988, 3996), (3998, 4001), (4003, 4006), (4008, 4011),
  (4013, 4024), (4026, 4028), (4038, 4038), (4096, 4169), (4176, 4253), (4256, 4346),
  (4349, 4351), (4608, 4959), (4992, 5007), (5121, 5740), (5743, 5786), (5792, 5866),
  (5873, 5940), (5952, 6067), (6070, 6099), (6103, 6103), (6108, 6121), (6160, 6459),
  (6470, 6617), (6656, 6683), (6688, 6809), (6823, 6823), (6832, 6845), (6847, 7001),
  (7019, 7027), (7040, 7155), (7168, 7223), (7232, 7293), (7312, 7359), (7376, 7378),
  (7380, 7467), (7471, 7471), (7483, 7483), (7502, 7502), (7531, 7543), (7545, 7578),
  (7616, 7833), (7836, 8048), (8050, 8050), (8052, 8052), (8054, 8054), (8056, 8056),
  (8058, 8058), (8060, 8060), (8112, 8113), (8118, 8118), (8120, 8122), (8134, 8134),
  (8136, 8136), (8138, 8138), (8144, 8146), (8150, 8154), (8160, 8162), (8164, 8170),
  (8172, 8172), (8182, 8182), (8184, 8184), (8186, 8186), (8486, 8486), (8490, 8491),
  (8498, 8498), (8526, 8526), (8579, 8580), (11264, 11387), (11390, 11492), (11499, 11507),
  (11520, 11623), (11647, 11775), (11823, 11823), (12293, 12295), (12330, 12333), (12348, 12348),
  (12353, 12442), (12445, 12446), (12449, 12538), (12540, 12542), (12549, 12591), (12704, 12735),
  (12784, 12799), (13312, 19903), (19968, 42124), (42192, 42237), (42240, 42508), (42512, 42607),
  (42612, 42621), (42623, 42651), (42654, 42725), (42736, 42737), (42775, 42783), (42786, 42863),
  (42865, 42888), (42891, 42969), (42997, 42999), (43002, 43047), (43052, 43052), (43072, 43123),
  (43136, 43205), (43216, 43255), (43259, 43259), (43261, 43309), (43312, 43347), (43392, 43456),
  (43471, 43481), (43488, 43609), (43616, 43638), (43642, 43741), (43744, 43759), (43762, 43866),
  (43872, 43880), (43968, 44010), (44012, 55203), (64014, 64015), (64017, 64017), (64019, 64020),
  (64031, 64031), (64033, 64033), (64035, 64036), (64039, 64041), (64286, 64286), (65056, 65071),
  (65139, 65139), (65536, 65786), (66045, 66272), (66304, 66335), (66349, 66368), (66370, 66377),
  (66384, 66461), (66464, 66511), (66560, 66915), (66928, 67456), (67584, 67669), (67680, 67702),
  (67712, 67742), (67808, 67829), (67840, 67861), (67872, 67897), (67968, 68023), (68030, 68031),
  (68096, 68159), (68192, 68220), (68224, 68252), (68288, 68295), (68297, 68326), (68352, 68405),
  (68416, 68437), (68448, 68466), (68480, 68497), (68608, 68850), (68864, 68921), (69248, 69292),
  (69296, 69404), (69415, 69456), (69488, 69509), (69552, 69572), (69600, 69702), (69734, 69818),
  (69826, 69951), (69956, 70003), (70006, 70084), (70089, 70092), (70094, 70106), (70108, 70108),
  (70144, 70199), (70206, 70312), (70320, 70730), (70736, 70745), (70750, 70853), (70855, 71104),
  (71128, 71232), (71236, 71257), (71296, 71352), (71360, 71481), (71488, 71738), (71840, 71913),
  (71935, 72003), (72016, 72161), (72163, 72254), (72263, 72345), (72349, 72349), (72368, 72768),
  (72784, 72793), (72818, 73462), (73648, 73648), (73728, 74649), (74880, 77808), (77824, 92777),
  (92784, 92916), (92928, 92982), (92992, 92995), (93008, 93017), (93027, 93823), (93952, 94177),
  (94179, 113817), (113821, 113822), (118528, 118598), (121344, 121398), (121403, 121452),
  (121461, 121461), (121476, 121476), (121499, 123214), (123536, 123641), (124896, 125124),
  (125136, 125273), (131072, 191456), (196608, 201546)]

/-- Whether a letter is a capital letter of Cherokee, where labels have the capital letters. -/
def isCherokee (letter : Letter) : Bool := 0x13A0 ≤ letter && letter ≤ 0x13F5

/-- Whether a letter may stand anywhere in a label. -/
def isPlain (letter : Letter) : Bool :=
  (Text.isAmong letterRanges letter && Text.isPrintable letter && Text.small letter = [letter]) ||
    isCherokee letter

def hyphen : Letter := '-'.toNat

/-- Letters of labels that belong to no words and are no marks. -/
def signs : List Letter := [hyphen, 0x6FD, 0x6FE, 0xF0B]

/-- Whether a letter is a mark on the letter before it. -/
def isMark (letter : Letter) : Bool :=
  isPlain letter && !Text.isWordLetter letter && !signs.contains letter

/-- The marks that take a place of their own, as ranges with both ends included. The ranges
reach over letters that are no marks. -/
def spacingRanges : Array (Letter × Letter) := #[
  (2307, 2307), (2363, 2363), (2366, 2368), (2377, 2380), (2382, 2383), (2434, 2435),
  (2494, 2496), (2503, 2508), (2519, 2519), (2563, 2563), (2622, 2624), (2691, 2691),
  (2750, 2752), (2761, 2764), (2818, 2819), (2878, 2878), (2880, 2880), (2887, 2892),
  (2903, 2903), (3006, 3007), (3009, 3020), (3031, 3031), (3073, 3075), (3137, 3140),
  (3202, 3203), (3262, 3275), (3285, 3286), (3330, 3331), (3390, 3392), (3398, 3404),
  (3415, 3415), (3458, 3459), (3535, 3537), (3544, 3571), (3902, 3903), (3967, 3967),
  (4139, 4140), (4145, 4145), (4152, 4152), (4155, 4156), (4182, 4183), (4194, 4205),
  (4227, 4228), (4231, 4236), (4239, 4252), (5909, 5909), (5940, 5940), (6070, 6070),
  (6078, 6085), (6087, 6088), (6435, 6438), (6441, 6449), (6451, 6456), (6681, 6682),
  (6741, 6741), (6743, 6743), (6753, 6753), (6755, 6756), (6765, 6770), (6916, 6916),
  (6965, 6965), (6971, 6971), (6973, 6977), (6979, 6980), (7042, 7073), (7078, 7079),
  (7082, 7082), (7143, 7143), (7146, 7148), (7150, 7150), (7154, 7211), (7220, 7221),
  (7393, 7393), (7415, 7415), (43043, 43044), (43047, 43047), (43136, 43203), (43346, 43347),
  (43395, 43395), (43444, 43445), (43450, 43451), (43454, 43456), (43567, 43568), (43571, 43572),
  (43597, 43643), (43645, 43645), (43755, 43755), (43758, 43765), (44003, 44004), (44006, 44007),
  (44009, 44012), (69632, 69632), (69634, 69634), (69762, 69810), (69815, 69816), (69932, 69932),
  (69957, 69958), (70018, 70069), (70079, 70080), (70094, 70094), (70188, 70190), (70194, 70195),
  (70197, 70197), (70368, 70370), (70402, 70403), (70462, 70463), (70465, 70499), (70709, 70711),
  (70720, 70721), (70725, 70725), (70832, 70834), (70841, 70841), (70843, 70846), (70849, 70849),
  (71087, 71089), (71096, 71099), (71102, 71102), (71216, 71218), (71227, 71228), (71230, 71230),
  (71340, 71340), (71342, 71343), (71350, 71350), (71456, 71457), (71462, 71462), (71724, 71726),
  (71736, 71736), (71984, 71992), (71997, 71997), (72000, 72002), (72145, 72147), (72156, 72159),
  (72164, 72164), (72199, 72200), (72249, 72249), (72279, 72280), (72343, 72343), (72751, 72751),
  (72766, 72767), (72873, 72873), (72881, 72881), (72884, 72884), (73098, 73102), (73107, 73108),
  (73110, 73110), (73461, 73462), (94033, 94087), (94192, 94193)]

/-- Whether a letter is a mark without a place of its own. -/
def isNonspacing (letter : Letter) : Bool :=
  isMark letter && !Text.isAmong spacingRanges letter

end Choreography.Http.Label
