/-!
# Library names of both targets

Names of the script language's library that both targets write in another way, by the part of the
library in which they stand.
-/

namespace GdScribe.Target

/-- The hints of export annotations. -/
def hintNames : List String :=
  ["range", "enum", "enum_suggestion", "exp_easing", "link", "flags", "layers_2d_render",
   "layers_2d_physics", "layers_2d_navigation", "layers_3d_render", "layers_3d_physics",
   "layers_3d_navigation", "layers_avoidance", "file", "dir", "global_file", "global_dir",
   "resource_type", "multiline_text", "expression", "placeholder_text", "color_no_alpha",
   "object_id", "type_string", "node_path_to_edited_nod", "object_too_big", "node_path_valid_types",
   "save_file", "global_save_file", "int_is_objectid", "int_is_pointer", "array_type", "locale_id",
   "localizable_string", "node_type", "hide_quaternion_edit", "password"]

/-- Names that a library has as well, and names for which it has another. -/
def libraryNames (same : List String) (others : List (String × String)) : List (String × String) :=
  same.map (fun n => (n, n)) ++ others

def mathNames : List (String × String) := libraryNames
  ["abs", "acos", "acosh", "angle_difference", "asin", "asinh", "atan", "atan2", "atanh",
   "bezier_derivative", "bezier_interpolate", "ceil", "clamp", "cos", "cosh", "cubic_interpolate",
   "cubic_interpolate_angle", "db_to_linear", "deg_to_rad", "ease", "exp", "floor", "inverse_lerp",
   "is_equal_approx", "is_finite", "is_inf", "is_zero_approx", "lerp", "lerp_angle", "linear_to_db",
   "log", "max", "min", "move_toward", "nearest_po2", "pow", "rad_to_deg", "remap", "rotate_toward",
   "round", "sign", "sin", "sinh", "snapped", "sqrt", "step_decimals", "tan", "tanh", "wrap"]
  [("absf", "abs"), ("absi", "abs"), ("ceilf", "ceil"), ("ceili", "ceil_to_int"),
   ("clampf", "clamp"), ("clampi", "clamp"),
   ("cubic_interpolate_angle_in_time", "cubic_interpolate_in_time"),
   ("cubic_interpolate_in_time", "cubic_interpolate_angle_in_time"), ("floorf", "floor"),
   ("floori", "floor_to_int"), ("fposmod", "pos_mod"), ("lerpf", "lerp"), ("maxf", "max"),
   ("maxi", "max"), ("minf", "min"), ("mini", "min"), ("pingpong", "ping_pong"),
   ("posmod", "pos_mod"), ("roundf", "round"), ("roundi", "round_to_int"), ("signf", "sign"),
   ("signi", "sign"), ("smoothstep", "smooth_step"), ("snappedf", "snapped"),
   ("snappedi", "snapped"), ("wrapf", "wrap"), ("wrapi", "wrap")]

def utilityNames : List (String × String) := libraryNames
  ["bytes_to_var", "bytes_to_var_with_objects", "hash", "print", "print_rich", "push_error",
   "push_warning", "rand_from_seed", "randf", "randfn", "randi", "randomize", "seed", "str_to_var",
   "var_to_bytes", "var_to_bytes_with_objects", "var_to_str"]
  [("printerr", "print_err"), ("printraw", "print_raw"), ("prints", "print_s"),
   ("printt", "print_t"), ("randf_range", "rand_range"), ("randi_range", "rand_range"),
   ("type_convert", "convert")]

/-- The functions of both parts of the library as they are spelled there, and some others. -/
def functionTable (math utility : String) (spell : String → String) (others : List (String × String)) :
    List (String × String) :=
  mathNames.map (fun n => (n.1, math ++ spell n.2)) ++
    (utilityNames.map (fun n => (n.1, utility ++ spell n.2)) ++ others)

end GdScribe.Target
