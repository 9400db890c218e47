import BraceTemplate.Text.Ranges

/- General categories. A line holds runs: two letters of the category and the length of
   the run; `Lx` is a run in which `Lu` and `Ll` alternate, beginning with `Lu`. -/
namespace BraceTemplate
namespace Text
namespace CategoryTable

/-- The runs of all code points in order. -/
def runs : List (Char × Char × Nat) := readLines letterRuns [
  "Cc32Zs1Po3Sc1Po3Ps1Pe1Po1Sm1Po1Pd1Po2Nd10Po2Sm3Po2Lu26Ps1Po1Pe1Sk1Pc1Sk1Ll26Ps1Sm1Pe1Sm1",
  "Cc33Zs1Po1Sc4So1Po1Sk1So1Lo1Pi1Sm1Cf1So1Sk1So1Sm1No2Sk1Ll1Po2Sk1No1Lo1Pf1No3Po1Lu23Sm1Lu7",
  "Ll24Sm1Ll8Lx56Ll1Lx16Ll1Lx46Lu1Lx6Ll2Lu1Lx4Lu2Ll1Lu3Ll2Lu4Ll1Lu2Ll1Lu3Ll3Lu2Ll1Lu1Lx6Lu1",
  "Lx4Ll1Lu1Ll1Lu2Ll1Lu2Lx4Lu2Ll2Lo1Lu1Ll3Lo4Lu1Lt1Ll1Lu1Lt1Ll1Lu1Lt1Ll1Lx16Ll1Lx18Ll1Lu1Lt1",
  "Ll1Lu1Ll1Lu2Lx60Ll6Lu2Ll1Lu2Ll2Lu1Ll1Lu3Lx10Ll68Lo2Ll26Lm18Sk4Lm12Sk14Lm5Sk7Lm1Sk1Lm1Sk17",
  "Mn112Lx4Lm1Sk1Lu1Ll1Cn2Lm1Ll3Po1Lu1Cn4Sk2Lu1Po1Lu3Cn1Lu1Cn1Lu2Ll1Lu17Cn1Lu9Ll35Lu1Ll2Lu3",
  "Ll3Lx24Ll4Lu1Ll1Sm1Lu1Ll1Lu2Ll2Lu51Ll48Lx34So1Mn5Me2Lx54Lu1Lx14Ll1Lx96Cn1Lu38Cn2Lm1Po6Ll41",
  "Po1Pd1Cn2So2Sc1Cn1Mn45Pd1Mn1Po1Mn2Po1Mn2Po1Mn1Cn8Lo27Cn4Lo4Po2Cn11Cf6Sm3Po2Sc1Po2So2Mn11",
  "Po1Cf1Po3Lo32Lm1Lo10Mn21Nd10Po4Lo2Mn1Lo99Po1Lo1Mn7Cf1So1Mn6Lm2Mn2So1Mn4Lo2Nd10Lo3So2Lo1",
  "Po14Cn1Cf1Lo1Mn1Lo30Mn27Cn2Lo89Mn11Lo1Cn14Nd10Lo33Mn9Lm2So1Po3Lm1Cn2Mn1Sc2Lo22Mn4Lm1Mn9Lm1",
  "Mn3Lm1Mn5Cn2Po15Cn1Lo25Mn3Cn2Po1Cn1Lo11Cn5Lo24Sk1Lo7Cf2Cn5Mn9Lo41Lm1Mn24Cf1Mn32Mc1Lo54Mn1",
  "Mc1Mn1Lo1Mc3Mn8Mc4Mn1Mc2Lo1Mn7Lo10Mn2Po2Nd10Po1Lm1Lo15Mn1Mc2Cn1Lo8Cn2Lo2Cn2Lo22Cn1Lo7Cn1",
  "Lo1Cn3Lo4Cn2Mn1Lo1Mc3Mn4Cn2Mc2Cn2Mc2Mn1Lo1Cn8Mc1Cn4Lo2Cn1Lo3Mn2Cn2Nd10Lo2Sc2No6So1Sc1Lo1",
  "Po1Mn1Cn2Mn2Mc1Cn1Lo6Cn4Lo2Cn2Lo22Cn1Lo7Cn1Lo2Cn1Lo2Cn1Lo2Cn2Mn1Cn1Mc3Mn2Cn4Mn2Cn2Mn3Cn3",
  "Mn1Cn7Lo4Cn1Lo1Cn7Nd10Mn2Lo3Mn1Po1Cn10Mn2Mc1Cn1Lo9Cn1Lo3Cn1Lo22Cn1Lo7Cn1Lo2Cn1Lo5Cn2Mn1Lo1",
  "Mc3Mn5Cn1Mn2Mc1Cn1Mc2Mn1Cn2Lo1Cn15Lo2Mn2Cn2Nd10Po1Sc1Cn7Lo1Mn6Cn1Mn1Mc2Cn1Lo8Cn2Lo2Cn2Lo22",
  "Cn1Lo7Cn1Lo2Cn1Lo5Cn2Mn1Lo1Mc1Mn1Mc1Mn4Cn2Mc2Cn2Mc2Mn1Cn7Mn2Mc1Cn4Lo2Cn1Lo3Mn2Cn2Nd10So1",
  "Lo1No6Cn10Mn1Lo1Cn1Lo6Cn3Lo3Cn1Lo4Cn3Lo2Cn1Lo1Cn1Lo2Cn3Lo2Cn3Lo3Cn3Lo12Cn4Mc2Mn1Mc2Cn3Mc3",
  "Cn1Mc3Mn1Cn2Lo1Cn6Mc1Cn14Nd10No3So6Sc1So1Cn5Mn1Mc3Mn1Lo8Cn1Lo3Cn1Lo23Cn1Lo16Cn2Mn1Lo1Mn3",
  "Mc4Cn1Mn3Cn1Mn4Cn7Mn2Cn1Lo3Cn1Lo2Cn2Lo2Mn2Cn2Nd10Cn7Po1No7So1Lo1Mn1Mc2Po1Lo8Cn1Lo3Cn1Lo23",
  "Cn1Lo10Cn1Lo5Cn2Mn1Lo1Mc1Mn1Mc5Cn1Mn1Mc2Cn1Mc2Mn2Cn7Mc2Cn5Lo3Cn1Lo2Mn2Cn2Nd10Cn1Lo2Mc1Cn12",
  "Mn2Mc2Lo9Cn1Lo3Cn1Lo41Mn2Lo1Mc3Mn4Cn1Mc3Cn1Mc3Mn1Lo1So1Cn4Lo3Mc1No7Lo3Mn2Cn2Nd10No9So1Lo6",
  "Cn1Mn1Mc2Cn1Lo18Cn3Lo24Cn1Lo9Cn1Lo1Cn2Lo7Cn3Mn1Cn4Mc3Mn3Cn1Mn1Cn1Mc8Cn6Nd10Cn2Mc2Po1Cn12",
  "Lo48Mn1Lo2Mn7Cn4Sc1Lo6Lm1Mn8Po1Nd10Po2Cn37Lo2Cn1Lo1Cn1Lo5Cn1Lo24Cn1Lo1Cn1Lo10Mn1Lo2Mn9Lo1",
  "Cn2Lo5Cn1Lm1Cn1Mn7Cn1Nd10Cn2Lo4Cn32Lo1So3Po15So1Po1So3Mn2So6Nd10No10So1Mn1So1Mn1So1Mn1Ps1",
  "Pe1Ps1Pe1Mc2Lo8Cn1Lo36Cn4Mn14Mc1Mn5Po1Mn2Lo5Mn11Cn1Mn36Cn1So8Mn1So6Cn1So2Po5So4Po2Cn37Lo43",
  "Mc2Mn4Mc1Mn6Mc1Mn2Mc2Mn2Lo1Nd10Po6Lo6Mc2Mn2Lo4Mn3Lo1Mc3Lo2Mc7Lo3Mn4Lo13Mn1Mc2Mn2Mc6Mn1Lo1",
  "Mc1Nd10Mc3Mn1So2Lu38Cn1Lu1Cn5Lu1Cn2Ll43Po1Lm1Ll3Lo329Cn1Lo4Cn2Lo7Cn1Lo1Cn1Lo4Cn2Lo41Cn1Lo4",
  "Cn2Lo33Cn1Lo4Cn2Lo7Cn1Lo1Cn1Lo4Cn2Lo15Cn1Lo57Cn1Lo4Cn2Lo67Cn2Mn3Po9No20Cn3Lo16So10Cn6Lu86",
  "Cn2Ll6Cn2Pd1Lo620So1Po1Lo17Zs1Lo26Ps1Pe1Cn3Lo75Po3Nl3Lo8Cn7Lo18Mn3Mc1Cn9Lo19Mn2Mc1Po2Cn9",
  "Lo18Mn2Cn12Lo13Cn1Lo3Cn1Mn2Cn12Lo52Mn2Mc1Mn7Mc8Mn1Mc2Mn11Po3Lm1Po3Sc1Lo1Mn1Cn2Nd10Cn6No10",
  "Cn6Po6Pd1Po4Mn3Cf1Mn1Nd10Cn6Lo35Lm1Lo53Cn7Lo5Mn2Lo34Mn1Lo1Cn5Lo70Cn10Lo31Cn1Mn3Mc4Mn2Mc3",
  "Cn4Mc2Mn1Mc6Mn3Cn4So1Cn3Po2Nd10Lo30Cn2Lo5Cn11Lo44Cn4Lo26Cn6Nd10No1Cn3So34Lo23Mn2Mc2Mn1Cn2",
  "Po2Lo53Mc1Mn1Mc1Mn7Cn1Mn1Mc1Mn1Mc2Mn8Mc6Mn10Cn2Mn1Nd10Cn6Nd10Cn6Po7Lm1Po6Cn2Mn14Me1Mn31Cn2",
  "Mn12Cn20Mn4Mc1Lo47Mn1Mc1Mn5Mc1Mn1Mc5Mn1Mc2Lo8Cn1Po2Nd10Po7So10Mn9So9Po3Mn2Mc1Lo30Mc1Mn4Mc2",
  "Mn2Mc1Mn3Lo2Nd10Lo44Mn1Mc1Mn2Mc3Mn1Mc1Mn3Mc2Cn8Po4Lo36Mc8Mn8Mc2Mn2Cn3Po5Nd10Cn3Lo3Nd10Lo30",
  "Lm6Po2Ll9Lu1Ll1Cn5Lu43Cn2Lu3Po8Cn8Mn3Po1Mn13Mc1Mn7Lo4Mn1Lo6Mn1Lo2Mc1Mn2Lo1Cn5Ll44Lm63Ll13",
  "Lm1Ll34Lm37Mn64Lx150Ll8Lx98Ll8Lu8Ll6Cn2Lu6Cn2Ll8Lu8Ll8Lu8Ll6Cn2Lu6Cn2Ll8Cn1Lu1Cn1Lu1Cn1Lu1",
  "Cn1Lu1Ll8Lu8Ll14Cn2Ll8Lt8Ll8Lt8Ll8Lt8Ll5Cn1Ll2Lu4Lt1Sk1Ll1Sk3Ll3Cn1Ll2Lu4Lt1Sk3Ll4Cn2Ll2",
  "Lu4Cn1Sk3Ll8Lu5Sk3Cn2Ll3Cn1Ll2Lu4Lt1Sk2Cn1Zs11Cf5Pd6Po2Pi1Pf1Ps1Pi2Pf1Ps1Pi1Po8Zl1Zp1Cf5",
  "Zs1Po9Pi1Pf1Po4Pc2Po3Sm1Ps1Pe1Po11Sm1Po1Pc1Po10Zs1Cf5Cn1Cf10No1Lm1Cn2No6Sm3Ps1Pe1Lm1No10",
  "Sm3Ps1Pe1Cn1Lm13Cn3Sc34Cn14Mn13Me4Mn1Me3Mn12Cn15So2Lu1So4Lu1So2Ll1Lu3Ll2Lu3Ll1So1Lu1So2Sm1",
  "Lu5So6Lu1So1Lu1So1Lu1So1Lu4So1Ll1Lu4Ll1Lo4Ll1So2Ll2Lu2Sm5Lu1Ll4So1Sm1So2Ll1So1No16Nl35Lu1",
  "Ll1Nl4No1So2Cn4Sm5So5Sm2So4Sm1So2Sm1So2Sm1So7Sm1So31Sm2So2Sm1So1Sm1So31Sm268So8Ps1Pe1Ps1",
  "Pe1So20Sm2So7Ps1Pe1So81Sm1So30Sm25So40Sm6So72Cn22So11Cn21No60So78No22So183Sm1So9Sm1So54Sm8",
  "So111Sm1So248Ps1Pe1Ps1Pe1Ps1Pe1Ps1Pe1Ps1Pe1Ps1Pe1Ps1Pe1No30So44Sm5Ps1Pe1Sm31Ps1Pe1Ps1Pe1",
  "Ps1Pe1Ps1Pe1Ps1Pe1Sm16So256Sm131Ps1Pe1Ps1Pe1Ps1Pe1Ps1Pe1Ps1Pe1Ps1Pe1Ps1Pe1Ps1Pe1Ps1Pe1Ps1",
  "Pe1Ps1Pe1Sm63Ps1Pe1Ps1Pe1Sm32Ps1Pe1Sm258So48Sm21So2Sm6So39Cn2So138Lu48Ll48Lu1Ll1Lu3Ll2Lx6",
  "Lu3Lx4Ll1Lu1Ll6Lm2Lu2Lx100Ll1So6Lx4Mn3Lu1Ll1Cn5Po4No1Po2Ll38Cn1Ll1Cn5Ll1Cn2Lo56Cn7Lm1Po1",
  "Cn14Mn1Lo23Cn9Lo7Cn1Lo7Cn1Lo7Cn1Lo7Cn1Lo7Cn1Lo7Cn1Lo7Cn1Lo7Cn1Mn32Po2Pi1Pf1Pi1Pf1Po3Pi1Pf1",
  "Po1Pi1Pf1Po9Pd1Po2Pd1Po1Pi1Pf1Po2Pi1Pf1Ps1Pe1Ps1Pe1Ps1Pe1Ps1Pe1Po5Lm1Po10Pd2Po4Pd1Po1Ps1",
  "Po13So2Po3Ps1Pe1Ps1Pe1Ps1Pe1Ps1Pe1Pd1Cn34So26Cn1So89Cn12So214Cn26So16Zs1Po3So1Lm1Lo1Nl1Ps1",
  "Pe1Ps1Pe1Ps1Pe1Ps1Pe1Ps1Pe1So2Ps1Pe1Ps1Pe1Ps1Pe1Ps1Pe1Pd1Ps1Pe2So1Nl9Mn4Mc2Pd1Lm5So2Nl3Lm1",
  "Lo1Po1So2Cn1Lo86Cn2Mn2Sk2Lm2Lo1Pd1Lo90Po1Lm3Lo1Cn5Lo43Cn1Lo94Cn1So2No4So10Lo32So38Cn9So1",
  "Lo16So31Cn1No10So30No8So1No15So32No10So39No15So320Lo6592So64Lo21013Lm1Lo1143Cn3So55Cn9Lo40",
  "Lm6Po2Lo268Lm1Po3Lo16Nd10Lo2Cn20Lx46Lo1Mn1Me3Po1Mn10Po1Lm1Lx28Lm2Mn2Lo70Nl10Mn2Po6Cn8Sk23",
  "Lm9Sk2Lx14Ll2Lx62Lm1Ll8Lx4Lu1Lx10Lm1Sk2Lx4Lo1Lx4Ll2Lx20Lu5Ll1Lu4Lx16Lu3Lx4Lu1Lx16Lu1Cn20",
  "Lm4Lu1Ll1Lo1Lm2Ll1Lo7Mn1Lo3Mn1Lo4Mn1Lo23Mc2Mn2Mc1So4Mn1Cn3No6So2Sc1So1Cn6Lo52Po4Cn8Mc2Lo50",
  "Mc16Mn2Cn8Po2Nd10Cn6Mn18Lo6Po3Lo1Po1Lo2Mn1Nd10Lo28Mn8Po2Lo23Mn11Mc2Cn11Po1Lo29Cn3Mn3Mc1",
  "Lo47Mn1Mc2Mn4Mc2Mn2Mc3Po13Cn1Lm1Nd10Cn4Po2Lo5Mn1Lm1Lo9Nd10Lo5Cn1Lo41Mn6Mc2Mn2Mc2Mn2Cn9Lo3",
  "Mn1Lo8Mn1Mc1Cn2Nd10Cn2Po4Lo16Lm1Lo6So3Lo1Mc1Mn1Mc1Lo50Mn1Lo1Mn3Lo2Mn2Lo5Mn2Lo1Mn1Lo1Cn24",
  "Lo2Lm1Po2Lo11Mc1Mn2Mc2Po2Lo1Lm2Mc1Mn1Cn10Lo6Cn2Lo6Cn2Lo6Cn9Lo7Cn1Lo7Cn1Ll43Sk1Lm4Ll9Lm1Sk2",
  "Cn4Ll80Lo35Mc2Mn1Mc2Mn1Mc2Po1Mc1Mn1Cn2Nd10Cn6Lo11172Cn12Lo23Cn4Lo49Cn4Cs2048Co6400Lo366Cn2",
  "Lo106Cn38Ll7Cn12Ll5Cn5Lo1Mn1Lo10Sm1Lo13Cn1Lo5Cn1Lo1Cn1Lo2Cn1Lo2Cn1Lo108Sk17So16Lo363Pe1Ps1",
  "So16Lo64So2Lo54So8Cn32Lo12Sc1So3Mn16Po7Ps1Pe1Po1Cn6Mn16Po1Pd2Pc2Ps1Pe1Ps1Pe1Ps1Pe1Ps1Pe1",
  "Ps1Pe1Ps1Pe1Ps1Pe1Ps1Pe1Po2Ps1Pe1Po4Pc3Po3Cn1Po4Pd1Ps1Pe1Ps1Pe1Ps1Pe1Po3Sm1Pd1Sm3Cn1Po1Sc1",
  "Po2Cn4Lo5Cn1Lo135Cn2Cf1Cn1Po3Sc1Po3Ps1Pe1Po1Sm1Po1Pd1Po2Nd10Po2Sm3Po2Lu26Ps1Po1Pe1Sk1Pc1",
  "Sk1Ll26Ps1Sm1Pe1Sm1Ps1Pe1Po1Ps1Pe1Po2Lo10Lm1Lo45Lm2Lo31Cn3Lo6Cn2Lo6Cn2Lo6Cn2Lo3Cn3Sc2Sm1",
  "Sk1So1Sc2Cn1So1Sm4So2Cn10Cf3So2Cn2Lo12Cn1Lo26Cn1Lo19Cn1Lo2Cn1Lo15Cn2Lo14Cn34Lo123Cn5Po3Cn4",
  "No45Cn3So9Nl53No4So17No2So3Cn1So13Cn3So1Cn47So45Mn1Cn130Lo29Cn3Lo49Cn15Mn1No27Cn4Lo32No4",
  "Cn9Lo20Nl1Lo8Nl1Cn5Lo38Mn5Cn5Lo30Cn1Po1Lo36Cn4Lo8Po1Nl5Cn42Lu40Ll40Lo78Cn2Nd10Cn6Lu36Cn4",
  "Ll36Cn4Lo40Cn8Lo52Cn11Po1Lu11Cn1Lu15Cn1Lu7Cn1Lu2Cn1Ll11Cn1Ll15Cn1Ll7Cn1Ll2Cn3Lo52Cn12Lo311",
  "Cn9Lo22Cn10Lo8Cn24Lm6Cn1Lm42Cn1Lm9Cn69Lo6Cn2Lo1Cn1Lo44Cn1Lo2Cn3Lo1Cn2Lo23Cn1Po1No8Lo23So2",
  "No7Lo31Cn8No9Cn48Lo19Cn1Lo2Cn5No5Lo22No6Cn3Po1Lo26Cn5Po1Lo26Cn38Lo56Cn4No2Lo2No16Cn2No46",
  "Lo1Mn3Cn1Mn2Cn5Mn4Lo4Cn1Lo3Cn1Lo29Cn2Mn3Cn4Mn1No9Cn7Po9Cn7Lo29No2Po1Lo29No3Cn32Lo8So1Lo28",
  "Mn2Cn4No5Po7Cn9Lo54Cn3Po7Lo22Cn2No8Lo19Cn5No8Lo18Cn7Po4Cn12No7Cn80Lo73Cn55Lu51Cn13Ll51Cn7",
  "No6Lo36Mn4Cn8Nd10Cn6Nd10Lo4Lm1Lo1Lu22Cn3Mn5Pd1Lm1Ll22Cn8Sm2Cn208No31Cn1Lo42Cn1Mn2Pd1Cn2Lo2",
  "Cn16Lo3Lm1Lo2Cn8Po1So8Cn33Mn6Lo29No10Lo1Cn8Lo22Mn11No4Po5Cn22Lo18Mn4Po4Cn38Lo21No7Cn20Lo23",
  "Cn9Mc1Mn1Mc1Lo53Mn15Po7Cn4No20Nd10Mn1Lo2Mn2Lo1Cn9Mn3Mc1Lo45Mc3Mn4Mc2Mn2Po2Cf1Po4Mn1Cn10Cf1",
  "Cn2Lo25Cn7Nd10Cn6Mn3Lo36Mn5Mc1Mn8Cn1Nd10Po4Lo1Mc2Lo1Cn8Lo35Mn1Po2Lo1Cn9Mn2Mc1Lo48Mc3Mn9Mc2",
  "Lo4Po4Mn4Po1Mc1Mn1Nd10Lo1Po1Lo1Po3Cn1No20Cn11Lo18Cn1Lo25Mc3Mn3Mc2Mn1Mc1Mn2Po6Mn1Lo2Mn1Cn62",
  "Lo7Cn1Lo1Cn1Lo4Cn1Lo15Cn1Lo10Po1Cn6Lo47Mn1Mc3Mn8Cn5Nd10Cn6Mn2Mc2Cn1Lo8Cn2Lo2Cn2Lo22Cn1Lo7",
  "Cn1Lo2Cn1Lo5Cn1Mn2Lo1Mc2Mn1Mc4Cn2Mc2Cn2Mc3Cn2Lo1Cn6Mc1Cn5Lo5Mc2Cn2Mn7Cn3Mn5Cn11Lo10Cn1Lo1",
  "Cn2Lo1Cn1Lo38Cn1Lo1Mc3Mn6Cn1Mc1Cn2Mc1Cn1Mc4Cn1Mc2Mn1Mc1Mn1Lo1Mn1Lo1Po2Cn1Po2Cn8Mn2Cn29Lo53",
  "Mc3Mn8Mc2Mn3Mc1Mn1Lo4Po5Nd10Po2Cn1Po1Mn1Lo3Cn30Lo48Mc3Mn6Mc1Mn1Mc4Mn2Mc1Mn2Lo2Po1Lo1Cn8",
  "Nd10Cn166Lo47Mc3Mn4Cn2Mc4Mn2Mc1Mn2Po23Lo4Mn2Cn34Lo48Mc3Mn8Mc2Mn1Mc1Mn2Po3Lo1Cn11Nd10Cn6",
  "Po13Cn19Lo43Mn1Mc1Mn1Mc2Mn6Mc1Mn1Lo1Po1Cn6Nd10Cn6Nd20Cn28Lo27Cn2Mn1Mc1Mn1Mc2Mn4Mc1Mn5Cn4",
  "Nd10No2Po3So1Lo7Cn185Lo44Mc3Mn9Mc1Mn2Po1Cn100Lu32Ll32Nd10No9Cn12Lo8Cn2Lo1Cn2Lo8Cn1Lo2Cn1",
  "Lo24Mc6Cn1Mc2Cn2Mn2Mc1Mn1Lo1Mc1Lo1Mc1Mn1Po3Cn9Nd10Cn70Lo8Cn2Lo39Mc3Mn4Cn2Mn2Mc4Mn1Lo1Po1",
  "Lo1Mc1Cn27Lo1Mn10Lo40Mn6Mc1Lo1Mn4Po8Mn1Cn8Lo1Mn6Mc2Mn3Lo46Mn13Mc1Mn2Po3Lo1Po5Cn13Lo73Cn7",
  "Po10Cn86Mn1Mc1Mn3Mc1Mn1Mc1Cn88Lo33Po1Cn14Nd10Cn6Lo9Cn1Lo37Mc1Mn7Cn1Mn6Mc1Mn1Lo1Po5Cn10Nd10",
  "No19Cn3Po2Lo30Cn2Mn22Cn1Mc1Mn7Mc1Mn2Mc1Mn2Cn73Lo7Cn1Lo2Cn1Lo38Mn6Cn3Mn1Cn1Mn2Cn1Mn7Lo1Mn1",
  "Cn8Nd10Cn6Lo6Cn1Lo2Cn1Lo32Mc5Cn1Mn2Cn1Mc2Mn1Mc1Mn1Lo1Cn7Nd10Cn6Lo41Lm1Lo2Cn4Nd10Cn246Lo19",
  "Mn2Mc2Po2Cn7Mn2Lo1Mc1Lo13Cn1Lo34Mc2Mn5Cn3Mc2Mn1Mc1Mn1Po13Nd10Mn1Cn85Lo1Cn15No21So8Sc4So17",
  "Cn13Po1Lo922Cn102Nl111Cn1Po5Cn11Lo196Cn2636Lo97Po2Cn13Lo1072Cf16Mn1Lo6Mn15Cn10Lo3995Cn5",
  "Lo583Cn6841Lo30Mn12Mc3Mn3Nd10Cn1734Lo569Cn7Lo31Cn1Nd10Cn4Po2Lo79Cn1Nd10Cn6Lo30Cn2Mn5Po1",
  "Cn10Lo48Mn7Po5So4Lm4Po1So1Cn10Nd10Cn1No7Cn1Lo21Cn5Lo19Cn432Lm3Lo40Lm2Po3Nd10Cn198Lu32Ll32",
  "No23Po4Cn5Lu25Cn2Ll25Cn44Lo75Cn4Mn1Lo1Mc55Cn7Mn4Lm13Cn64Lm2Po1Lm1Mn1Cn11Mc2Lm2Nl3Cn9Lo7382",
  "Cn41Lo32Cn97Lo115Cn8701Lm4Cn1Lm7Cn1Lm2Cn1Lo291Cn15Lo1Cn29Lo3Cn2Lo1Cn14Lo4Cn8Lo396Cn2308",
  "Lo107Cn5Lo13Cn3Lo9Cn7Lo10Cn2So1Mn2Po1Cf4Cn3932So240Nd10So3Cn3So436Cn6So23Cn15So16Sm1Cn15",
  "Mn46Cn2Mn23Cn9So116Cn60So246Cn10So39Cn2So60Mc2Mn3So3Mc6Cf8Mn8So2Mn7So30Mn4So61Cn21So66Mn3",
  "So1Cn122No20Cn12No20Cn12So87Cn9No25Cn135Lu26Ll26Lu26Ll7Cn1Ll18Lu26Ll26Lu1Cn1Lu2Cn2Lu1Cn2",
  "Lu2Cn2Lu4Cn1Lu8Ll4Cn1Ll1Cn1Ll7Cn1Ll11Lu26Ll26Lu2Cn1Lu4Cn2Lu8Cn1Lu7Cn1Ll26Lu2Cn1Lu4Cn1Lu5",
  "Cn1Lu1Cn3Lu7Cn1Ll26Lu26Ll26Lu26Ll26Lu26Ll26Lu26Ll26Lu26Ll26Lu26Ll28Cn2Lu25Sm1Ll25Sm1Ll6",
  "Lu25Sm1Ll25Sm1Ll6Lu25Sm1Ll25Sm1Ll6Lu25Sm1Ll25Sm1Ll6Lu25Sm1Ll25Sm1Ll6Lu1Ll1Cn2Nd50So512Mn55",
  "So4Mn50So8Mn1So14Mn1So2Po5Cn15Mn5Cn1Mn15Cn1104Ll10Lo1Ll20Cn6Ll6Cn213Mn7Cn1Mn17Cn2Mn7Cn1Mn2",
  "Cn1Mn5Cn5Lm62Cn33Mn1Cn112Lo45Cn3Mn7Lm7Cn2Nd10Cn4Lo1So1Cn320Lo30Mn1Cn17Lo44Mn4Nd10Cn5Sc1",
  "Cn464Lo27Lm1Mn4Nd10Cn214Lo30Mn2Lo1Nd10Cn4Po1Cn192Lo31Cn1Lo3Mn1Lo2Mn1Lo7Mn2Lo5Mn1Cn8Lo1Lm1",
  "Cn224Lo7Cn1Lo4Cn1Lo2Cn1Lo15Cn1Lo197Cn2No9Mn7Cn41Lu34Ll34Mn7Lm1Cn4Nd10Cn4Po2Cn785No59So1No3",
  "Sc1No4Cn76No45So1No15Cn194Lo4Cn1Lo27Cn1Lo2Cn1Lo1Cn2Lo1Cn1Lo10Cn1Lo4Cn1Lo1Cn1Lo1Cn6Lo1Cn4",
  "Lo1Cn1Lo1Cn1Lo1Cn1Lo3Cn1Lo2Cn1Lo1Cn2Lo1Cn1Lo1Cn1Lo1Cn1Lo1Cn1Lo1Cn1Lo2Cn1Lo1Cn2Lo4Cn1Lo7Cn1",
  "Lo4Cn1Lo4Cn1Lo1Cn1Lo10Cn1Lo17Cn5Lo3Cn1Lo5Cn1Lo17Cn52Sm2Cn270So44Cn4So100Cn12So15Cn2So15Cn1",
  "So15Cn1So37Cn10No13So161Cn56So29Cn13So44Cn4So9Cn7So2Cn14So6Cn154So251Sk5So729Cn3So17Cn3",
  "So13Cn3So218Cn6So12Cn4So1Cn15So12Cn4So56Cn8So10Cn6So40Cn8So30Cn2So12Cn4So2Cn14Sm9Cn39So344",
  "Cn8So14Cn2So13Cn3So11Cn3So57Cn1So1Cn4So16Cn2So12Cn4So10Cn7So147Cn1So92Nd10So1Cn1029Lo42720",
  "Cn32Lo4382Cn2Lo5774Cn2Lo7473Cn15Lo622Cn2466Lo542Cn1506Lo4939Cn5Lo8490Cn707463Cf1Cn30Cf96",
  "Cn128Mn240Cn65040Co65534Cn2Co65534Cn2"]

end CategoryTable
end Text
end BraceTemplate
