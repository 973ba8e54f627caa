namespace GlPrograms.Source

def ofLines (lines : List String) : String := String.join (lines.map (· ++ "\n"))

def vertexTemplate : String :=
  ofLines [
    "/*",
    " * Shared vertex stage for every texture variant.",
    " *",
    " * Attribute slots are bound before linking:",
    " *   position -> 0, texcoord -> 1",
    " */",
    "",
    "uniform mat4 proj;",
    "",
    "attribute vec2 position;",
    "attribute vec2 texcoord;",
    "",
    "varying vec2 v_texcoord;",
    "",
    "void main()",
    "\x7b",
    "\tgl_Position = proj * vec4(position, 0.0, 1.0);",
    "\tv_texcoord = texcoord;",
    "\x7d"
  ]

/-- The fragment stage of every program, which branches on the macros of its configuration. -/
def fragmentTemplate : String :=
  ofLines [
    "/*",
    " * Fragment stage body.",
    " *",
    " * Preceded by a generated block that defines:",
    " *   DEF_GREEN_TINT  true or false",
    " *   DEF_VARIANT     one of the SHADER_VARIANT_* names below",
    " */",
    "",
    "/* Keep in sync with TextureVariant::symbol() */",
    "#define SHADER_VARIANT_NONE     0",
    "#define SHADER_VARIANT_RGBX     1",
    "#define SHADER_VARIANT_RGBA     2",
    "#define SHADER_VARIANT_Y_U_V    3",
    "#define SHADER_VARIANT_Y_UV     4",
    "#define SHADER_VARIANT_Y_XUXV   5",
    "#define SHADER_VARIANT_XYUV     6",
    "#define SHADER_VARIANT_SOLID    7",
    "#define SHADER_VARIANT_EXTERNAL 8",
    "",
    "#if DEF_VARIANT == SHADER_VARIANT_EXTERNAL",
    "#extension GL_OES_EGL_image_external : require",
    "#endif",
    "",
    "precision mediump float;",
    "",
    "#if DEF_VARIANT == SHADER_VARIANT_EXTERNAL",
    "uniform samplerExternalOES tex;",
    "#else",
    "uniform sampler2D tex;",
    "#endif",
    "",
    "uniform sampler2D tex1;",
    "uniform sampler2D tex2;",
    "uniform float alpha;",
    "uniform vec4 unicolor;",
    "",
    "varying vec2 v_texcoord;",
    "",
    "const bool c_green_tint = DEF_GREEN_TINT;",
    "const int c_variant = DEF_VARIANT;",
    "",
    "/* BT.601 limited range to full range RGB */",
    "vec4",
    "yuva2rgba(vec4 yuva)",
    "\x7b",
    "\tvec4 color_out;",
    "\tfloat y = 1.16438356 * (yuva.x - 0.0625);",
    "\tfloat su = yuva.y - 0.5;",
    "\tfloat sv = yuva.z - 0.5;",
    "",
    "\tcolor_out.r = y                   + 1.59602678 * sv;",
    "\tcolor_out.g = y - 0.39176229 * su - 0.81296764 * sv;",
    "\tcolor_out.b = y + 2.01723214 * su;",
    "\tcolor_out.a = yuva.w;",
    "",
    "\treturn color_out;",
    "\x7d",
    "",
    "vec4",
    "sample_input_texture()",
    "\x7b",
    "\tvec4 yuva = vec4(0.0, 0.0, 0.0, 1.0);",
    "",
    "\tif (c_variant == SHADER_VARIANT_SOLID)",
    "\t\treturn unicolor;",
    "",
    "\tif (c_variant == SHADER_VARIANT_RGBA ||",
    "\t    c_variant == SHADER_VARIANT_EXTERNAL)",
    "\t\treturn texture2D(tex, v_texcoord);",
    "",
    "\tif (c_variant == SHADER_VARIANT_RGBX)",
    "\t\treturn vec4(texture2D(tex, v_texcoord).rgb, 1.0);",
    "",
    "\tif (c_variant == SHADER_VARIANT_Y_U_V) \x7b",
    "\t\tyuva.x = texture2D(tex, v_texcoord).x;",
    "\t\tyuva.y = texture2D(tex1, v_texcoord).x;",
    "\t\tyuva.z = texture2D(tex2, v_texcoord).x;",
    "\t\x7d else if (c_variant == SHADER_VARIANT_Y_UV) \x7b",
    "\t\tyuva.x = texture2D(tex, v_texcoord).x;",
    "\t\tyuva.yz = texture2D(tex1, v_texcoord).rg;",
    "\t\x7d else if (c_variant == SHADER_VARIANT_Y_XUXV) \x7b",
    "\t\tyuva.x = texture2D(tex, v_texcoord).x;",
    "\t\tyuva.yz = texture2D(tex1, v_texcoord).ga;",
    "\t\x7d else if (c_variant == SHADER_VARIANT_XYUV) \x7b",
    "\t\tyuva.xyz = texture2D(tex, v_texcoord).bgr;",
    "\t\x7d else \x7b",
    "\t\t/* SHADER_VARIANT_NONE: nothing to sample, paint it loud */",
    "\t\treturn vec4(1.0, 0.3, 1.0, 1.0);",
    "\t\x7d",
    "",
    "\treturn yuva2rgba(yuva);",
    "\x7d",
    "",
    "void",
    "main()",
    "\x7b",
    "\tvec4 color = sample_input_texture();",
    "",
    "\tcolor *= alpha;",
    "",
    "\tif (c_green_tint)",
    "\t\tcolor = vec4(0.0, 0.3, 0.0, 0.2) + color * 0.8;",
    "",
    "\tgl_FragColor = color;",
    "\x7d"
  ]

def versionPragma : String := "#version 100\n"

end GlPrograms.Source
